import LoadReport.Fault
import LoadReport.Path
import LoadReport.Utf8

/-! # Trees of files

Directories give names to inodes, so a file can have many names, and a symbolic link stands for a
path. An inode may refuse to be opened, the bytes of a file may end in a fault, and the disk may
take no more than some number of bytes, so a file can be left with a part of what is written to it.
-/

namespace LoadReport

abbrev Node := Nat

inductive Object where
  | file (content : List UInt8)
  | directory (above : Node) (names : List (String × Node))
  | link (path : String)
  deriving DecidableEq

namespace Object

/-- The inodes that an object leads to. -/
def nodes : Object → List Node
  | .directory above names => above :: names.map (·.2)
  | _ => []

def addName (name : String) (n : Node) : Object → Object
  | .directory above names => .directory above (names ++ [(name, n)])
  | o => o

theorem mem_nodes_addName {name : String} {m n : Node} {o : Object}
    (h : m ∈ (o.addName name n).nodes) : m ∈ o.nodes ∨ m = n := by
  cases o with
  | directory above names => simpa [addName, nodes, or_assoc, or_left_comm] using h
  | file | link => exact .inl h

end Object

structure Inode where
  object : Object
  /-- Why it cannot be read or, if it is a directory, searched. -/
  unreadable : Option String := none
  /-- Why it cannot be written or, if it is a directory, take another name. -/
  unwritable : Option String := none
  /-- How many bytes can be read, and what goes wrong then. -/
  damage : Option (Nat × String) := none
  deriving DecidableEq

/-- No directory leads to an inode that is not there. -/
def FileTree.Closed (inodes : List Inode) : Prop :=
  ∀ i ∈ inodes, ∀ n ∈ i.object.nodes, n < inodes.length

instance (inodes : List Inode) : Decidable (FileTree.Closed inodes) :=
  inferInstanceAs (Decidable (∀ i ∈ inodes, _))

structure FileTree where
  inodes : List Inode := [{ object := .directory 0 [("work", 1)] }, { object := .directory 0 [] }]
  root : Node := 0
  working : Node := 1
  limit : Option Limit := none
  closed : FileTree.Closed inodes := by decide
  root_lt : root < inodes.length := by decide
  working_lt : working < inodes.length := by decide

/-- Where a path leads: to an inode, or to a name that is free in a directory. -/
inductive Place where
  | node (n : Node)
  | free (directory : Node) (name : String)
  deriving DecidableEq

namespace FileTree

/-! ## Paths -/

def maxName : Nat := 255

def maxPath : Nat := 4095

def maxLinks : Nat := 40

/-- What a directory that can be searched holds. -/
def search (t : FileTree) (n : Node) : Except Fault (Node × List (String × Node)) :=
  match t.inodes[n]? with
  | none => .error .notFound
  | some i =>
    match i.object, i.unreadable with
    | .directory above names, none => .ok (above, names)
    | .directory _ _, some reason => .error (.other reason)
    | _, _ => .error .notADirectory

def link? (t : FileTree) (n : Node) : Option String :=
  match t.inodes[n]? with
  | some { object := .link path, .. } => some path
  | _ => none

/-- What a segment leads to: an inode, the path of a symbolic link, or a free name. -/
inductive Step where
  | into (n : Node)
  | through (path : String)
  | free (name : String)
  deriving DecidableEq

def step (t : FileTree) (n : Node) (s : List Char) : Except Fault Step := do
  let (above, names) ← t.search n
  if s = [] || s = ['.'] then return .into n
  else if s = ['.', '.'] then return .into above
  else
    let name := String.ofList s
    if maxName < name.utf8ByteSize then throw .nameTooLong
    match names.lookup name with
    | none => return .free name
    | some m =>
      match t.link? m with
      | some path => return .through path
      | none => return .into m

def start (t : FileTree) (n : Node) : List Char → Node × List (List Char)
  | '/' :: p => (t.root, Path.segments p)
  | p => (n, Path.segments p)

/-- Follows segments. At a symbolic link the segments of its path are put before the others, and
`follow` goes on. -/
def walk (t : FileTree) (follow : Node → List (List Char) → Except Fault Place) :
    Node → List (List Char) → Except Fault Place
  | n, [] => .ok (.node n)
  | n, s :: ss =>
    match t.step n s with
    | .error fault => .error fault
    | .ok (.into m) => walk t follow m ss
    | .ok (.through path) =>
      follow (t.start n path.toList).1 ((t.start n path.toList).2 ++ ss)
    | .ok (.free name) => if ss = [] then .ok (.free n name) else .error .notFound

def resolve (t : FileTree) : Nat → Node → List (List Char) → Except Fault Place
  | 0 => t.walk fun _ _ => .error .tooManyLinks
  | k + 1 => t.walk (t.resolve k)

def locate (t : FileTree) (path : String) : Except Fault Place :=
  if maxPath < path.utf8ByteSize then .error .nameTooLong
  else if path = "" then .error .notFound
  else t.resolve maxLinks (t.start t.working path.toList).1 (t.start t.working path.toList).2

/-! ## Reading -/

def stat (t : FileTree) (path : String) : Except Fault Inode := do
  match ← t.locate path with
  | .free _ _ => .error .notFound
  | .node n =>
    match t.inodes[n]? with
    | some i => .ok i
    | none => .error .notFound

def open? (t : FileTree) (path : String) : Except Fault Inode := do
  let i ← t.stat path
  match i.unreadable with
  | some reason => .error (.other reason)
  | none => .ok i

/-- The bytes of an inode that is open. A directory can be opened but not read. -/
def readInode (i : Inode) : Except Fault (List UInt8) :=
  match i.object, i.damage with
  | .file content, none => .ok content
  | .file _, some (_, reason) => .error (.other reason)
  | .directory _ _, _ => .error .isADirectory
  | .link _, _ => .error .tooManyLinks

def read (t : FileTree) (path : String) : Except Fault (List UInt8) := do
  readInode (← t.open? path)

def readText (t : FileTree) (path : String) : Except Fault (List Char) := do
  match Utf8.decode? (← t.read path) with
  | some text => .ok text
  | none => .error .notUtf8

/-! ## Writing -/

theorem mem_modify {i : Inode} {is : List Inode} {f : Inode → Inode} {n : Nat}
    (h : i ∈ is.modify n f) : ∃ j ∈ is, i = j ∨ i = f j := by
  obtain ⟨m, hm⟩ := List.mem_iff_getElem?.mp h
  rw [List.getElem?_modify, Option.map_eq_map, Option.map_eq_some_iff] at hm
  obtain ⟨j, hj, rfl⟩ := hm
  refine ⟨j, List.mem_of_getElem? hj, ?_⟩
  split
  · exact .inr rfl
  · exact .inl rfl

def fill (t : FileTree) (n : Node) (content : List UInt8) : FileTree where
  inodes := t.inodes.modify n fun i => { i with object := .file content }
  root := t.root
  working := t.working
  limit := t.limit
  closed := by
    intro i hi m hm
    rw [List.length_modify]
    obtain ⟨j, hj, rfl | rfl⟩ := mem_modify hi
    · exact t.closed i hj m hm
    · cases hm
  root_lt := by
    rw [List.length_modify]
    exact t.root_lt
  working_lt := by
    rw [List.length_modify]
    exact t.working_lt

def add (t : FileTree) (d : Node) (name : String) (o : Object)
    (h : ∀ n ∈ o.nodes, n < t.inodes.length) : FileTree where
  inodes :=
    (t.inodes.modify d fun i => { i with object := i.object.addName name t.inodes.length }) ++
      [{ object := o }]
  root := t.root
  working := t.working
  limit := t.limit
  closed := by
    intro i hi m hm
    rw [List.length_append, List.length_modify, List.length_singleton, Nat.lt_succ_iff]
    obtain hi | hi := List.mem_append.mp hi
    · obtain ⟨j, hj, rfl | rfl⟩ := mem_modify hi
      · exact Nat.le_of_lt (t.closed i hj m hm)
      · obtain hm | rfl := Object.mem_nodes_addName hm
        · exact Nat.le_of_lt (t.closed j hj m hm)
        · exact Nat.le_refl _
    · obtain rfl := List.mem_singleton.mp hi
      exact Nat.le_of_lt (h m hm)
  root_lt := by
    rw [List.length_append, List.length_modify]
    exact Nat.lt_add_right 1 t.root_lt
  working_lt := by
    rw [List.length_append, List.length_modify]
    exact Nat.lt_add_right 1 t.working_lt

def addFile (t : FileTree) (d : Node) (name : String) : FileTree :=
  t.add d name (.file []) fun _ => nofun

def addDirectory (t : FileTree) (d : Node) (name : String) : FileTree :=
  if h : d < t.inodes.length then
    t.add d name (.directory d []) fun _ hn => by rwa [List.mem_singleton.mp hn]
  else t

/-- Leaves a file that has been written, and what room there is then. -/
def close (t : FileTree) (n : Node) (content : List UInt8) (limit : Option Limit) : FileTree :=
  { t.fill n content with limit }

/-- Opens a place to write a file there. The old content is gone, whatever becomes of the new one.
-/
def openPlace (t : FileTree) : Place → Except Fault (FileTree × Node)
  | .node n =>
    match t.inodes[n]? with
    | none => .error .notFound
    | some i =>
      match i.object, i.unwritable with
      | .directory _ _, _ => .error .isADirectory
      | .link _, _ => .error .tooManyLinks
      | .file _, some reason => .error (.other reason)
      | .file _, none => .ok (t.fill n [], n)
  | .free d name =>
    match t.inodes[d]? with
    | none => .error .notFound
    | some i =>
      match i.unwritable with
      | some reason => .error (.other reason)
      | none => .ok (t.addFile d name, t.inodes.length)

/-- Opens a path to write a file there. One that ends in a slash cannot become a file. -/
def create (t : FileTree) (path : String) : Except Fault (FileTree × Node) := do
  let body := (path.toList.reverse.dropWhile (· = '/')).reverse
  if maxPath < path.utf8ByteSize then .error .nameTooLong
  else if body = [] then
    .error (if path = "" then .notFound else .isADirectory)
  else
    let place ← t.locate (String.ofList body)
    if body ≠ path.toList then .error .isADirectory else t.openPlace place

end FileTree

/-! ## Trees without links -/

/-- The names that lead from the working directory to something. -/
abbrev Location := List String

inductive Entry where
  | file (content : List UInt8)
  | directory
  deriving DecidableEq

namespace FileTree

def pathOf (l : Location) : String := "/".intercalate l

def entry? (t : FileTree) (l : Location) : Option Entry :=
  match t.stat (pathOf l) with
  | .ok { object := .file content, .. } => some (.file content)
  | .ok { object := .directory _ _, .. } => some .directory
  | _ => none

def place (t : FileTree) (path : String) (e : Entry) : FileTree :=
  match t.locate path, e with
  | .ok (.node n), .file content => t.fill n content
  | .ok (.free d name), .file content => (t.addFile d name).fill t.inodes.length content
  | .ok (.free d name), .directory => t.addDirectory d name
  | _, _ => t

def insert (t : FileTree) (l : Location) (e : Entry) : FileTree := t.place (pathOf l) e

def makeDirectories (t : FileTree) (l : Location) : FileTree :=
  (List.range l.length).foldl (fun t n => t.insert (l.take (n + 1)) .directory) t

def entriesBelow (t : FileTree) : Nat → Node → Location → List (Location × Entry)
  | 0, _, _ => []
  | depth + 1, n, l =>
    match t.search n with
    | .error _ => []
    | .ok (_, names) =>
      names.flatMap fun (name, m) =>
        match t.inodes[m]? with
        | some { object := .file content, .. } => [(l ++ [name], .file content)]
        | some { object := .directory _ _, .. } =>
          (l ++ [name], .directory) :: t.entriesBelow depth m (l ++ [name])
        | _ => []

def entries (t : FileTree) : List (Location × Entry) :=
  t.entriesBelow t.inodes.length t.working []

end FileTree

end LoadReport

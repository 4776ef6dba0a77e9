import LoadReport.Proofs.FileTree.Paths

/-! # Trees that change

When a file gets another content, or a free name becomes that of a new file, each segment still
leads where it has led before, but for the name that is taken. By induction on the segments and on
the links that are passed, so does every path.
-/

namespace LoadReport.FileTree

variable {t t' t'' : FileTree} {n m d above : Node} {names : List (String × Node)}
  {name : String} {φ : Place → Place}
  {follow follow' : Node → List (List Char) → Except Fault Place}

/-! ## Places that move -/

/-- Places go by `φ`, and faults stay faults. -/
inductive Carries (φ : Place → Place) : Except Fault Place → Except Fault Place → Prop
  | ok (q : Place) : Carries φ (.ok q) (.ok (φ q))
  | error (fault fault' : Fault) : Carries φ (.error fault) (.error fault')

/-- What a segment leads to in two trees. A name that has been free may be that of an inode from
which no segment leads on. -/
inductive Follows (t : FileTree) (φ : Place → Place) (n : Node) :
    Except Fault Step → Except Fault Step → Prop
  | error (fault fault' : Fault) : Follows t φ n (.error fault) (.error fault')
  | into (m : Node) : Follows t φ n (.ok (.into m)) (.ok (.into m))
  | through (path : String) : Follows t φ n (.ok (.through path)) (.ok (.through path))
  | free {name : String} (h : φ (.free n name) = .free n name) :
    Follows t φ n (.ok (.free name)) (.ok (.free name))
  | taken {name : String} {m : Node} (h : φ (.free n name) = .node m)
    (hleaf : ∀ s, ∃ fault, t.step m s = .error fault) :
    Follows t φ n (.ok (.free name)) (.ok (.into m))

/-- Paths lead to the same inodes in both trees, but a free name may have been taken. -/
structure Relocates (t t' : FileTree) (φ : Place → Place) : Prop where
  root : t'.root = t.root
  working : t'.working = t.working
  node : ∀ n, φ (.node n) = .node n
  step : ∀ n s, Follows t' φ n (t.step n s) (t'.step n s)

theorem Relocates.start (h : Relocates t t' φ) (n : Node) (p : List Char) :
    t'.start n p = t.start n p := by
  unfold FileTree.start
  rw [h.root]

theorem Relocates.walk (h : Relocates t t' φ)
    (hfollow : ∀ n ss, Carries φ (follow n ss) (follow' n ss)) (n : Node)
    (ss : List (List Char)) : Carries φ (t.walk follow n ss) (t'.walk follow' n ss) := by
  induction ss generalizing n with
  | nil =>
    have hok := Carries.ok (φ := φ) (.node n)
    rwa [h.node] at hok
  | cons s ss ih =>
    rw [walk_cons, walk_cons]
    have hstep := h.step n s
    revert hstep
    generalize t.step n s = r
    generalize t'.step n s = r'
    intro hstep
    cases hstep with
    | error fault fault' => exact .error fault fault'
    | into m => exact ih m
    | through path =>
      dsimp only
      rw [h.start]
      exact hfollow _ _
    | @free name hname =>
      dsimp only
      split_ifs
      · have hok := Carries.ok (φ := φ) (.free n name)
        rwa [hname] at hok
      · exact .error _ _
    | @taken name m hname hleaf =>
      dsimp only
      cases ss with
      | nil =>
        have hok := Carries.ok (φ := φ) (.free n name)
        rwa [hname] at hok
      | cons u us =>
        obtain ⟨fault, hu⟩ := hleaf u
        rw [walk_cons, hu]
        exact .error _ fault

theorem Relocates.resolve (h : Relocates t t' φ) (k : ℕ) (n : Node) (ss : List (List Char)) :
    Carries φ (t.resolve k n ss) (t'.resolve k n ss) := by
  induction k generalizing n ss with
  | zero => exact h.walk (fun _ _ => .error _ _) n ss
  | succ k ih => exact h.walk ih n ss

theorem Relocates.locate (h : Relocates t t' φ) (path : String) :
    Carries φ (t.locate path) (t'.locate path) := by
  unfold FileTree.locate
  rw [h.working, h.start]
  split_ifs
  · exact .error _ _
  · exact .error _ _
  · exact h.resolve maxLinks _ _

theorem Relocates.refl (t : FileTree) : Relocates t t id := by
  constructor
  case root | working | node => intros; rfl
  case step =>
    intro n s
    rcases t.step n s with fault | (m | path | name)
    · exact .error fault fault
    · exact .into m
    · exact .through path
    · exact .free rfl

theorem Relocates.congr (h : Relocates t t' φ) (hroot : t''.root = t'.root)
    (hworking : t''.working = t'.working) (hstep : t''.step = t'.step) : Relocates t t'' φ := by
  constructor
  case root => rw [hroot, h.root]
  case working => rw [hworking, h.working]
  case node => exact h.node
  case step =>
    intro n s
    rw [hstep]
    have hfollows := h.step n s
    generalize t.step n s = r at hfollows
    generalize t'.step n s = r' at hfollows
    cases hfollows with
    | error fault fault' => exact .error fault fault'
    | into m => exact .into m
    | through path => exact .through path
    | free hname => exact .free hname
    | taken hname hleaf => exact .taken hname (by rwa [hstep])

/-! ## Filling a file -/

theorem getElem?_fill (t : FileTree) (n m : Node) (content : List UInt8) :
    (t.fill n content).inodes[m]? =
      t.inodes[m]?.map fun i => if n = m then { i with object := .file content } else i :=
  List.getElem?_modify ..

theorem getElem?_fill_of_ne (h : n ≠ m) (content : List UInt8) :
    (t.fill n content).inodes[m]? = t.inodes[m]? := by
  simp [getElem?_fill, h]

def IsFile (t : FileTree) (n : Node) : Prop :=
  ∃ i content, t.inodes[n]? = some i ∧ i.object = .file content

theorem search_fill (h : t.IsFile n) (content : List UInt8) (m : Node) :
    (t.fill n content).search m = t.search m := by
  by_cases hm : n = m
  · obtain ⟨i, old, hi, hobject⟩ := h
    subst hm
    simp [search, getElem?_fill, hi, hobject]
  · simp only [search, getElem?_fill_of_ne hm]

theorem link?_fill (h : t.IsFile n) (content : List UInt8) (m : Node) :
    (t.fill n content).link? m = t.link? m := by
  by_cases hm : n = m
  · obtain ⟨⟨object, unreadable, unwritable, damage⟩, old, hi, rfl⟩ := h
    subst hm
    simp [link?, getElem?_fill, hi]
  · simp only [link?, getElem?_fill_of_ne hm]

theorem step_fill (h : t.IsFile n) (content : List UInt8) : (t.fill n content).step = t.step := by
  funext m s
  simp only [step, search_fill h, link?_fill h]

theorem Relocates.fill (h : Relocates t t' φ) (hn : t'.IsFile n) (content : List UInt8) :
    Relocates t (t'.fill n content) φ :=
  h.congr rfl rfl (step_fill hn content)

/-! ## Adding a file -/

theorem getElem?_addFile_of_lt (hm : m < t.inodes.length) (d : Node) (name : String) :
    (t.addFile d name).inodes[m]? = t.inodes[m]?.map fun i =>
      if d = m then { i with object := i.object.addName name t.inodes.length } else i := by
  have hlength : m < (t.inodes.modify d fun i =>
      { i with object := i.object.addName name t.inodes.length }).length := by
    rwa [List.length_modify]
  exact (List.getElem?_append_left hlength).trans (List.getElem?_modify ..)

theorem getElem?_addFile_length (t : FileTree) (d : Node) (name : String) :
    (t.addFile d name).inodes[t.inodes.length]? = some { object := .file [] } := by
  have hlength : (t.inodes.modify d fun i =>
      { i with object := i.object.addName name t.inodes.length }).length = t.inodes.length :=
    List.length_modify ..
  exact (List.getElem?_append_right hlength.le).trans (by rw [hlength, Nat.sub_self]; rfl)

theorem getElem?_addFile_of_gt (hm : t.inodes.length < m) (d : Node) (name : String) :
    (t.addFile d name).inodes[m]? = none := by
  apply List.getElem?_eq_none
  simp [addFile, add]
  omega

/-- The names in a directory when one has been added to the directory `d`. -/
def namesAfter (t : FileTree) (d : Node) (name : String) (n : Node)
    (names : List (String × Node)) : List (String × Node) :=
  if d = n then names ++ [(name, t.inodes.length)] else names

theorem search_addFile_of_lt (hn : n < t.inodes.length) (d : Node) (name : String) :
    (t.addFile d name).search n =
      (t.search n).map fun (above, names) => (above, t.namesAfter d name n names) := by
  unfold search
  rw [getElem?_addFile_of_lt hn, List.getElem?_eq_getElem hn]
  obtain ⟨object, unreadable, unwritable, damage⟩ := t.inodes[n]
  by_cases hd : d = n <;> cases object <;> cases unreadable <;>
    simp [hd, Object.addName, namesAfter, Except.map]

theorem search_addFile (h : t.search n = .ok (above, names)) (d : Node) (name : String) :
    (t.addFile d name).search n = .ok (above, t.namesAfter d name n names) := by
  rw [search_addFile_of_lt (lt_of_search h), h]
  rfl

theorem search_addFile_of_error {fault : Fault} (h : t.search n = .error fault) (d : Node)
    (name : String) : ∃ fault', (t.addFile d name).search n = .error fault' := by
  obtain hlt | rfl | hgt := Nat.lt_trichotomy n t.inodes.length
  · refine ⟨fault, ?_⟩
    rw [search_addFile_of_lt hlt, h]
    rfl
  · refine ⟨.notADirectory, ?_⟩
    simp only [search, getElem?_addFile_length]
  · refine ⟨.notFound, ?_⟩
    simp only [search, getElem?_addFile_of_gt hgt]

theorem link?_addFile (hm : m < t.inodes.length) (d : Node) (name : String) :
    (t.addFile d name).link? m = t.link? m := by
  unfold link?
  rw [getElem?_addFile_of_lt hm, List.getElem?_eq_getElem hm]
  obtain ⟨object, unreadable, unwritable, damage⟩ := t.inodes[m]
  by_cases hd : d = m <;> cases object <;> simp [hd, Object.addName]

/-- The free name becomes the name of the new file. -/
def occupy (t : FileTree) (d : Node) (name : String) (q : Place) : Place :=
  if q = .free d name then .node t.inodes.length else q

theorem lookup_namesAfter_of_some {x : String} (h : names.lookup x = some m) :
    (t.namesAfter d name n names).lookup x = some m := by
  unfold namesAfter
  split_ifs
  · rw [List.lookup_append, h]
    rfl
  · exact h

/-- A name that has been free is the new one, or free still. -/
theorem lookup_namesAfter_of_none {x : String} (h : names.lookup x = none) :
    (t.namesAfter d name n names).lookup x = none ∧ t.occupy d name (.free n x) = .free n x ∨
      (t.namesAfter d name n names).lookup x = some t.inodes.length ∧
        t.occupy d name (.free n x) = .node t.inodes.length := by
  by_cases hx : d = n ∧ x = name
  · obtain ⟨rfl, rfl⟩ := hx
    refine .inr ⟨?_, if_pos rfl⟩
    simp [namesAfter, List.lookup_append, h]
  · refine .inl ⟨?_, if_neg fun heq => ?_⟩
    · unfold namesAfter
      split_ifs with hd
      · have hne : (x == name) = false := beq_false_of_ne fun he => hx ⟨hd, he⟩
        simp [List.lookup_append, h, List.lookup_cons, hne]
      · exact h
    · obtain ⟨rfl, rfl⟩ := Place.free.inj heq
      exact hx ⟨rfl, rfl⟩

theorem Names.addFile {s : List Char} (h : Names t n s names) (d : Node) (name : String) :
    Names (t.addFile d name) n s (t.namesAfter d name n names) := by
  obtain ⟨above, hsearch⟩ := h.search
  exact ⟨⟨above, search_addFile hsearch d name⟩, h.isName, h.short⟩

theorem relocates_addFile (t : FileTree) (d : Node) (name : String) :
    Relocates t (t.addFile d name) (t.occupy d name) := by
  constructor
  case root | working => rfl
  case node => exact fun n => if_neg nofun
  case step =>
    intro n s
    have hsteps := steps t n s
    revert hsteps
    generalize t.step n s = r
    intro hsteps
    cases hsteps with
    | shut h =>
      obtain ⟨fault', h'⟩ := search_addFile_of_error h d name
      rw [(Steps.shut h').step_eq]
      exact .error _ _
    | stay h hs =>
      rw [(Steps.stay (search_addFile h d name) hs).step_eq]
      exact .into _
    | up h hs =>
      rw [(Steps.up (search_addFile h d name) hs).step_eq]
      exact .into _
    | long h hs hlong =>
      rw [(Steps.long (search_addFile h d name) hs hlong).step_eq]
      exact .error _ _
    | free h hname =>
      obtain ⟨hfree, htaken⟩ | ⟨hnew, htaken⟩ := lookup_namesAfter_of_none hname
      · rw [(Steps.free (h.addFile d name) hfree).step_eq]
        exact .free htaken
      · have hlink : (t.addFile d name).link? t.inodes.length = none := by
          simp only [link?, getElem?_addFile_length]
        have hsearch : (t.addFile d name).search t.inodes.length = .error .notADirectory := by
          simp only [search, getElem?_addFile_length]
        rw [(Steps.down (h.addFile d name) hnew hlink).step_eq]
        exact .taken htaken fun u => ⟨_, (Steps.shut hsearch).step_eq⟩
    | through h hname hlink =>
      rw [← link?_addFile (h.lt hname) d name] at hlink
      rw [(Steps.through (h.addFile d name) (lookup_namesAfter_of_some hname) hlink).step_eq]
      exact .through _
    | down h hname hlink =>
      rw [← link?_addFile (h.lt hname) d name] at hlink
      rw [(Steps.down (h.addFile d name) (lookup_namesAfter_of_some hname) hlink).step_eq]
      exact .into _

end LoadReport.FileTree

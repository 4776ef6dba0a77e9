import LoadReport.Proofs.FileTree.Relocation

/-! # Writing files

Whether a file can be written at the end of a path is told by where the path leads. When it has
been, the paths that lead to its place see the new content, and no other path sees any difference.
-/

namespace LoadReport.FileTree

variable {t t' : FileTree} {n d : Node} {name path : String} {p q : Place} {i : Inode}
  {content : List UInt8} {φ : Place → Place}

/-! ## Opening and closing files -/

/-- What can be seen of an inode but for the names in a directory. -/
def face (i : Inode) : Inode :=
  match i.object with
  | .directory above _ => { i with object := .directory above [] }
  | _ => i

inductive Admits (t : FileTree) : Place → Prop
  | file {n : Node} {i : Inode} {content : List UInt8} (hi : t.inodes[n]? = some i)
    (hobject : i.object = .file content) (hwritable : i.unwritable = none) : Admits t (.node n)
  | name {d : Node} {i : Inode} {name : String} (hi : t.inodes[d]? = some i)
    (hwritable : i.unwritable = none) : Admits t (.free d name)

/-- In `t'` there is a file in the place `q` of `t`, with the inode `n`. -/
structure Stores (t : FileTree) (q : Place) (φ : Place → Place) (n : Node) (content : List UInt8)
    (t' : FileTree) : Prop where
  admits : t.Admits q
  relocates : Relocates t t' φ
  place : φ q = .node n
  fixed : ∀ p, p ≠ q → φ p = p
  fresh : q = .node n ∨ n = t.inodes.length
  self : ∃ i, t'.inodes[n]? = some i ∧ i.object = .file content ∧ i.unwritable = none
  others : ∀ m < t.inodes.length, m ≠ n →
    t'.inodes[m]?.map face = t.inodes[m]?.map face

theorem stores_fill (hi : t.inodes[n]? = some i) (hobject : i.object = .file content)
    (hwritable : i.unwritable = none) : Stores t (.node n) id n [] (t.fill n []) := by
  constructor
  case admits => exact .file hi hobject hwritable
  case relocates => exact (Relocates.refl t).fill ⟨i, content, hi, hobject⟩ []
  case place => rfl
  case fixed => exact fun _ _ => rfl
  case fresh => exact .inl rfl
  case self =>
    refine ⟨{ i with object := .file [] }, ?_, rfl, hwritable⟩
    simp [getElem?_fill, hi]
  case others =>
    intro m _ hm
    rw [getElem?_fill_of_ne hm.symm]

theorem face_addName (i : Inode) (name : String) (m : Node) :
    face { i with object := i.object.addName name m } = face i := by
  obtain ⟨object, unreadable, unwritable, damage⟩ := i
  cases object <;> rfl

theorem stores_addFile (hi : t.inodes[d]? = some i) (hwritable : i.unwritable = none)
    (name : String) : Stores t (.free d name) (t.occupy d name) t.inodes.length []
      (t.addFile d name) := by
  constructor
  case admits => exact .name hi hwritable
  case relocates => exact relocates_addFile t d name
  case place => exact if_pos rfl
  case fixed => exact fun p hp => if_neg hp
  case fresh => exact .inr rfl
  case self => exact ⟨_, getElem?_addFile_length t d name, rfl, rfl⟩
  case others =>
    intro m hm _
    rw [getElem?_addFile_of_lt hm, Option.map_map]
    congr 1
    funext j
    dsimp only [Function.comp]
    split_ifs
    · exact face_addName j name _
    · rfl

theorem stores_openPlace (h : t.openPlace q = .ok (t', n)) : ∃ φ, Stores t q φ n [] t' := by
  cases q with
  | node m =>
    simp only [openPlace] at h
    cases hi : t.inodes[m]? with
    | none => simp [hi] at h
    | some i =>
      rw [hi] at h
      cases hobject : i.object with
      | directory | link => simp [hobject] at h
      | file content =>
        cases hwritable : i.unwritable with
        | some reason => simp [hobject, hwritable] at h
        | none =>
          simp only [hobject, hwritable, Except.ok.injEq, Prod.mk.injEq] at h
          obtain ⟨rfl, rfl⟩ := h
          exact ⟨_, stores_fill hi hobject hwritable⟩
  | free d name =>
    simp only [openPlace] at h
    cases hi : t.inodes[d]? with
    | none => simp [hi] at h
    | some i =>
      cases hwritable : i.unwritable with
      | some reason => simp [hi, hwritable] at h
      | none =>
        simp only [hi, hwritable, Except.ok.injEq, Prod.mk.injEq] at h
        obtain ⟨rfl, rfl⟩ := h
        exact ⟨_, stores_addFile hi hwritable name⟩

theorem exists_openPlace (h : t.Admits q) : ∃ t' n, t.openPlace q = .ok (t', n) := by
  cases h with
  | file hi hobject hwritable =>
    simp only [openPlace, hi, hobject, hwritable]
    exact ⟨_, _, rfl⟩
  | name hi hwritable =>
    simp only [openPlace, hi, hwritable]
    exact ⟨_, _, rfl⟩

theorem Stores.close (h : Stores t q φ n content t') (content' : List UInt8)
    (limit : Option Limit) : Stores t q φ n content' (t'.close n content' limit) := by
  obtain ⟨i, hi, hobject, hwritable⟩ := h.self
  have hstep : (t'.close n content' limit).step = (t'.fill n content').step := rfl
  constructor
  case admits => exact h.admits
  case relocates =>
    exact (h.relocates.fill ⟨i, content, hi, hobject⟩ content').congr rfl rfl hstep
  case place => exact h.place
  case fixed => exact h.fixed
  case fresh => exact h.fresh
  case self =>
    refine ⟨{ i with object := .file content' }, ?_, rfl, hwritable⟩
    change (t'.fill n content').inodes[n]? = _
    simp [getElem?_fill, hi]
  case others =>
    intro m hm hne
    change (t'.fill n content').inodes[m]?.map face = _
    rw [getElem?_fill_of_ne hne.symm, h.others m hm hne]

/-! ## Paths to one place -/

def SamePlace (t : FileTree) (path path' : String) : Prop :=
  ∃ q, t.locate path = .ok q ∧ t.locate path' = .ok q

/-- What can be seen at the end of a path. -/
def seen (t : FileTree) (path : String) : Option Inode := (t.stat path).toOption.map face

def content? (t : FileTree) (path : String) : Option (List UInt8) :=
  match t.seen path with
  | some { object := .file content, .. } => some content
  | _ => none

/-- A path that does not end in a slash, where a file can be written. -/
def Writable (t : FileTree) (path : String) : Prop :=
  (¬ ∃ p, path.toList = p ++ ['/']) ∧ ∃ q, t.locate path = .ok q ∧ t.Admits q

theorem stat_of_node (h : t.locate path = .ok (.node n)) :
    (t.stat path).toOption = t.inodes[n]? := by
  simp only [stat, h, bind, Except.bind]
  cases t.inodes[n]? <;> rfl

theorem seen_of_node (h : t.locate path = .ok (.node n)) :
    t.seen path = t.inodes[n]?.map face := by
  rw [seen, stat_of_node h]

theorem seen_of_free (h : t.locate path = .ok (.free d name)) : t.seen path = none := by
  rw [seen, stat, h]
  rfl

theorem seen_of_error {fault : Fault} (h : t.locate path = .error fault) : t.seen path = none := by
  rw [seen, stat, h]
  rfl

theorem face_file (hobject : i.object = .file content) : face i = i := by
  rw [face, hobject]

theorem of_face_eq {j : Inode} (h : face j = face i) :
    j.unwritable = i.unwritable ∧ ∀ content, i.object = .file content → j = i := by
  obtain ⟨object, unreadable, unwritable, damage⟩ := i
  obtain ⟨object', unreadable', unwritable', damage'⟩ := j
  cases object <;> cases object' <;> simp_all [face]

namespace Stores

/-- The inode of a place that is not written stays as it is. -/
theorem unwritten (h : Stores t q φ n content t') (hp : t.Stands p) (hne : p ≠ q) :
    φ p = p ∧ p ≠ .node n := by
  refine ⟨h.fixed p hne, ?_⟩
  rintro rfl
  obtain rfl | rfl := h.fresh
  · exact hne rfl
  · cases hp with
    | node hlt => exact lt_irrefl _ hlt

theorem injective (h : Stores t q φ n content t') {p p' : Place} (hp : t.Stands p)
    (hp' : t.Stands p') (heq : φ p = φ p') : p = p' := by
  by_cases hq : p = q <;> by_cases hq' : p' = q
  · rw [hq, hq']
  · subst hq
    rw [h.place, (h.unwritten hp' hq').1] at heq
    exact absurd heq.symm (h.unwritten hp' hq').2
  · subst hq'
    rw [h.place, (h.unwritten hp hq).1] at heq
    exact absurd heq (h.unwritten hp hq).2
  · rwa [h.fixed p hq, h.fixed p' hq'] at heq

theorem locate_eq_ok_iff (h : Stores t q φ n content t') :
    t'.locate path = .ok p ↔ ∃ p', t.locate path = .ok p' ∧ p = φ p' := by
  have hcarries := h.relocates.locate path
  generalize t.locate path = r at hcarries
  generalize t'.locate path = r' at hcarries
  cases hcarries with
  | ok p' => simp [eq_comm]
  | error => simp

theorem samePlace_iff (h : Stores t q φ n content t') (path path' : String) :
    t'.SamePlace path path' ↔ t.SamePlace path path' := by
  simp only [SamePlace, h.locate_eq_ok_iff]
  constructor
  · rintro ⟨_, ⟨p, hp, rfl⟩, p', hp', heq⟩
    obtain rfl := h.injective (stands_locate hp) (stands_locate hp') heq
    exact ⟨p, hp, hp'⟩
  · rintro ⟨p, hp, hp'⟩
    exact ⟨φ p, ⟨p, hp, rfl⟩, p, hp', rfl⟩

theorem seen_self (h : Stores t q φ n content t') (hq : t.locate path = .ok q) :
    ∃ i, t'.seen path = some i ∧ i.object = .file content := by
  obtain ⟨i, hi, hobject, -⟩ := h.self
  have hlocate : t'.locate path = .ok (.node n) := by
    rw [h.locate_eq_ok_iff]
    exact ⟨q, hq, h.place.symm⟩
  refine ⟨i, ?_, hobject⟩
  rw [seen_of_node hlocate, hi, Option.map_some, face_file hobject]

theorem seen_eq (h : Stores t q φ n content t') (hq : t.locate path ≠ .ok q) :
    t'.seen path = t.seen path := by
  cases hlocate : t.locate path with
  | error fault =>
    rw [seen_of_error hlocate]
    have hcarries := h.relocates.locate path
    rw [hlocate] at hcarries
    generalize hlocate' : t'.locate path = r at hcarries
    cases hcarries with
    | error _ fault' => exact seen_of_error hlocate'
  | ok p =>
    have hne : p ≠ q := by
      rintro rfl
      exact hq hlocate
    obtain ⟨hfixed, hp⟩ := h.unwritten (stands_locate hlocate) hne
    have hlocate' : t'.locate path = .ok p := by
      rw [h.locate_eq_ok_iff]
      exact ⟨p, hlocate, hfixed.symm⟩
    cases p with
    | node m =>
      have hm : m ≠ n := by
        rintro rfl
        exact hp rfl
      have hstands := stands_locate hlocate
      cases hstands with
      | node hlt => rw [seen_of_node hlocate, seen_of_node hlocate', h.others m hlt hm]
    | free d name => rw [seen_of_free hlocate, seen_of_free hlocate']

end Stores

theorem Admits.congr (hq : t.Admits q)
    (h : ∀ m, (q = .node m ∨ ∃ name, q = .free m name) →
      t'.inodes[m]?.map face = t.inodes[m]?.map face) : t'.Admits q := by
  cases hq with
  | @file m i content hi hobject hwritable =>
    have hface := h m (.inl rfl)
    rw [hi, Option.map_some, Option.map_eq_some_iff] at hface
    obtain ⟨j, hj, hface⟩ := hface
    obtain ⟨-, hsame⟩ := of_face_eq hface
    obtain rfl := hsame content hobject
    exact .file hj hobject hwritable
  | @name d i name hi hwritable =>
    have hface := h d (.inr ⟨name, rfl⟩)
    rw [hi, Option.map_some, Option.map_eq_some_iff] at hface
    obtain ⟨j, hj, hface⟩ := hface
    exact .name hj ((of_face_eq hface).1.trans hwritable)

namespace Stores

/-- A file can be written in the same places as before. -/
theorem admits_iff (h : Stores t q φ n content t') (hp : t.Stands p) :
    t'.Admits (φ p) ↔ t.Admits p := by
  by_cases hq : p = q
  · subst hq
    obtain ⟨i, hi, hobject, hwritable⟩ := h.self
    rw [h.place]
    exact iff_of_true (.file hi hobject hwritable) h.admits
  · obtain ⟨hfixed, hne⟩ := h.unwritten hp hq
    have hothers : ∀ m, (p = .node m ∨ ∃ name, p = .free m name) →
        t'.inodes[m]?.map face = t.inodes[m]?.map face := by
      rintro m (rfl | ⟨name, rfl⟩)
      · cases hp with
        | node hlt =>
          refine h.others m hlt ?_
          rintro rfl
          exact hne rfl
      · cases hp with
        | free hsearch =>
          refine h.others m (lt_of_search hsearch) ?_
          rintro rfl
          obtain rfl | rfl := h.fresh
          · cases h.admits with
            | file hi hobject =>
              obtain ⟨j, hj, hdirectory, -⟩ := search_eq_ok_iff.mp hsearch
              obtain rfl := Option.some.inj (hi.symm.trans hj)
              cases hobject.symm.trans hdirectory
          · exact lt_irrefl _ (lt_of_search hsearch)
    rw [hfixed]
    exact ⟨fun hp => hp.congr fun m hm => (hothers m hm).symm, fun hp => hp.congr hothers⟩

theorem writable_iff (h : Stores t q φ n content t') (path : String) :
    t'.Writable path ↔ t.Writable path := by
  refine and_congr_right fun _ => ?_
  simp only [h.locate_eq_ok_iff]
  constructor
  · rintro ⟨_, ⟨p, hp, rfl⟩, hadmits⟩
    exact ⟨p, hp, (h.admits_iff (stands_locate hp)).mp hadmits⟩
  · rintro ⟨p, hp, hadmits⟩
    exact ⟨φ p, ⟨p, hp, rfl⟩, (h.admits_iff (stands_locate hp)).mpr hadmits⟩

end Stores

/-! ## Creating files -/

theorem body_ne_of_slash {p body : List Char} (h : path.toList = p ++ ['/'])
    (hbody : (path.toList.reverse.dropWhile (· = '/')).reverse = body) : body ≠ path.toList := by
  rintro rfl
  have hlength := congrArg List.length hbody
  have hle := (List.dropWhile_suffix (l := p.reverse) (· = '/')).length_le
  simp [h] at hlength hle
  omega

theorem body_eq_of_not_slash (h : ¬ ∃ p, path.toList = p ++ ['/']) :
    (path.toList.reverse.dropWhile (· = '/')).reverse = path.toList := by
  obtain hnil | ⟨p, c, hp⟩ := List.eq_nil_or_concat path.toList
  · rw [hnil]
    rfl
  · rw [List.concat_eq_append] at hp
    have hc : c ≠ '/' := by
      rintro rfl
      exact h ⟨p, hp⟩
    simp [hp, hc]

theorem create_eq_ok_iff : t.create path = .ok (t', n) ↔
    (¬ ∃ p, path.toList = p ++ ['/']) ∧
      ∃ q, t.locate path = .ok q ∧ t.openPlace q = .ok (t', n) := by
  unfold create
  by_cases hslash : ∃ p, path.toList = p ++ ['/']
  · refine iff_of_false (fun h => ?_) fun h => h.1 hslash
    obtain ⟨p, hp⟩ := hslash
    have hne := body_ne_of_slash hp rfl
    dsimp only at h
    split_ifs at h
    obtain ⟨q, -, h⟩ := bind_eq_ok_iff.mp h
    cases h
  · rw [body_eq_of_not_slash hslash, and_iff_right hslash]
    by_cases hlong : maxPath < path.utf8ByteSize
    · simp [locate, hlong]
    by_cases hnil : path.toList = []
    · obtain rfl := String.toList_eq_nil_iff.mp hnil
      simp [locate]
    simp [hlong, hnil, bind_eq_ok_iff]

theorem exists_create_iff : (∃ t' n, t.create path = .ok (t', n)) ↔ t.Writable path := by
  simp only [create_eq_ok_iff, Writable]
  constructor
  · rintro ⟨t', n, hslash, q, hq, hplace⟩
    obtain ⟨φ, hstores⟩ := stores_openPlace hplace
    exact ⟨hslash, q, hq, hstores.admits⟩
  · rintro ⟨hslash, q, hq, hadmits⟩
    obtain ⟨t', n, hplace⟩ := exists_openPlace hadmits
    exact ⟨t', n, hslash, q, hq, hplace⟩

theorem limit_create (h : t.create path = .ok (t', n)) : t'.limit = t.limit := by
  obtain ⟨-, q, -, hplace⟩ := create_eq_ok_iff.mp h
  unfold openPlace at hplace
  split at hplace <;> split at hplace <;> try split at hplace
  all_goals cases hplace
  all_goals rfl

structure Overwrites (t : FileTree) (path : String) (content : List UInt8) (t' : FileTree) :
    Prop where
  samePlace_iff : ∀ p p', t'.SamePlace p p' ↔ t.SamePlace p p'
  writable_iff : ∀ p, t'.Writable p ↔ t.Writable p
  content : ∀ p, t.SamePlace path p → t'.content? p = some content
  seen : ∀ p, ¬ t.SamePlace path p → t'.seen p = t.seen p

theorem overwrites_of_create (h : t.create path = .ok (t', n)) (content : List UInt8)
    (limit : Option Limit) : Overwrites t path content (t'.close n content limit) := by
  obtain ⟨-, q, hq, hplace⟩ := create_eq_ok_iff.mp h
  obtain ⟨φ, hstores⟩ := stores_openPlace hplace
  have hstores := hstores.close content limit
  constructor
  case samePlace_iff => exact hstores.samePlace_iff
  case writable_iff => exact hstores.writable_iff
  case content =>
    rintro p ⟨q', hq', hp⟩
    obtain rfl := Except.ok.inj (hq.symm.trans hq')
    obtain ⟨⟨_, _, _, _⟩, hi, rfl⟩ := hstores.seen_self hp
    rw [content?, hi]
  case seen =>
    intro p hp
    exact hstores.seen_eq fun hp' => hp ⟨q, hq, hp'⟩

theorem Writable.samePlace (h : t.Writable path) : t.SamePlace path path := by
  obtain ⟨-, q, hq, -⟩ := h
  exact ⟨q, hq, hq⟩

/-! ## Reading -/

theorem open_eq_ok_iff : t.open? path = .ok i ↔ t.stat path = .ok i ∧ i.unreadable = none := by
  rw [open?, bind_eq_ok_iff]
  constructor
  · rintro ⟨j, hj, h⟩
    cases hreadable : j.unreadable with
    | some reason => simp [hreadable] at h
    | none =>
      simp only [hreadable, Except.ok.injEq] at h
      obtain rfl := h
      exact ⟨hj, hreadable⟩
  · rintro ⟨hi, hreadable⟩
    exact ⟨i, hi, by simp only [hreadable]⟩

theorem readInode_eq_ok_iff :
    readInode i = .ok content ↔ i.object = .file content ∧ i.damage = none := by
  obtain ⟨object, unreadable, unwritable, damage⟩ := i
  cases object <;> cases damage <;> simp [readInode]

theorem stat_eq_ok_iff_seen (hobject : i.object = .file content) :
    t.stat path = .ok i ↔ t.seen path = some i := by
  unfold seen
  cases t.stat path with
  | error fault => exact iff_of_false nofun nofun
  | ok j =>
    rw [Except.ok.injEq]
    change _ ↔ some (face j) = some i
    rw [Option.some.injEq]
    constructor
    · rintro rfl
      exact face_file hobject
    · intro h
      rw [← face_file hobject] at h
      exact (of_face_eq h).2 content hobject

/-- Whether a file can be read, and what is read, can be told from what is seen. -/
theorem read_eq_ok_iff : t.read path = .ok content ↔ ∃ i, t.seen path = some i ∧
    i.object = .file content ∧ i.unreadable = none ∧ i.damage = none := by
  simp only [read, bind_eq_ok_iff, open_eq_ok_iff, readInode_eq_ok_iff]
  refine exists_congr fun i => ⟨?_, ?_⟩
  · rintro ⟨⟨hstat, hreadable⟩, hobject, hdamage⟩
    exact ⟨(stat_eq_ok_iff_seen hobject).mp hstat, hobject, hreadable, hdamage⟩
  · rintro ⟨hseen, hobject, hreadable, hdamage⟩
    exact ⟨⟨(stat_eq_ok_iff_seen hobject).mpr hseen, hreadable⟩, hobject, hdamage⟩

theorem open_eq_notFound_iff :
    t.open? path = .error .notFound ↔ t.stat path = .error .notFound := by
  rw [open?, bind_eq_error_iff]
  refine or_iff_left ?_
  rintro ⟨i, -, h⟩
  split at h <;> cases h

/-- Nothing but that there is no file keeps a text from being found. -/
theorem readText_eq_notFound_iff :
    t.readText path = .error .notFound ↔ t.stat path = .error .notFound := by
  rw [← open_eq_notFound_iff, readText, bind_eq_error_iff, read, bind_eq_error_iff]
  constructor
  · rintro ((hopen | ⟨i, -, hi⟩) | ⟨bytes, -, htext⟩)
    · exact hopen
    · unfold readInode at hi
      split at hi <;> cases hi
    · split at htext <;> cases htext
  · exact fun hopen => .inl (.inl hopen)

/-! ## Directories -/

theorem IsDirectory.not_read {n : Node} (h : t.IsDirectory n) (hq : t.locate path = .ok (.node n)) :
    t.read path ≠ .ok content := by
  obtain ⟨i, above, names, hi, hobject⟩ := h
  intro hread
  obtain ⟨j, hseen, hfile, -⟩ := read_eq_ok_iff.mp hread
  rw [seen_of_node hq, hi, Option.map_some, Option.some.injEq] at hseen
  rw [← face_file hfile] at hseen
  obtain rfl := (of_face_eq hseen).2 content hfile
  cases hobject.symm.trans hfile

theorem IsDirectory.not_writable {n : Node} (h : t.IsDirectory n)
    (hq : t.locate path = .ok (.node n)) : ¬ t.Writable path := by
  obtain ⟨i, above, names, hi, hobject⟩ := h
  rintro ⟨-, q, hq', hadmits⟩
  obtain rfl := Except.ok.inj (hq.symm.trans hq')
  cases hadmits with
  | file hi' hfile =>
    obtain rfl := Option.some.inj (hi.symm.trans hi')
    cases hobject.symm.trans hfile

/-- In a tree without links, something can be read at a path only if its last segment names it. -/
theorem Plain.exists_name (h : t.Plain) (hread : t.read path = .ok content) :
    ∃ ss s, Path.segments path.toList = ss ++ [s] ∧ Path.IsName s := by
  obtain hnil | ⟨ss, s, hs⟩ := List.eq_nil_or_concat (Path.segments path.toList)
  · exact absurd hnil (List.splitOn_ne_nil _ _)
  rw [List.concat_eq_append] at hs
  refine ⟨ss, s, hs, ?_⟩
  by_contra hname
  obtain ⟨i, hseen, -⟩ := read_eq_ok_iff.mp hread
  cases hq : t.locate path with
  | error fault => simp [seen_of_error hq] at hseen
  | ok q =>
    obtain ⟨n, rfl, hdir⟩ := h.isDirectory_of_locate hs hs (fun hsame => hname hsame.2) hq hq
    exact hdir.not_read hq hread

end LoadReport.FileTree

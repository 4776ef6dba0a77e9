import LoadReport.FileTree
import LoadReport.Proofs.Path
import Mathlib.Data.List.Nodup

/-! # Where paths lead

Each segment of a path leads on from a directory. Paths that differ in their last segments only pass
the same links and end in the same directory. Where there are no links, and no file has two names in
a directory, they lead to different files.
-/

namespace LoadReport.FileTree

open LoadReport.Path (segments IsName)

variable {t : FileTree} {n m d above : Node} {names : List (String × Node)} {s s' : List Char}
  {ss : List (List Char)} {path path' : String} {q : Place} {k : ℕ} {fault : Fault}
  {follow : Node → List (List Char) → Except Fault Place} {r : Except Fault Step}

theorem bind_eq_ok_iff {α β : Type} {x : Except Fault α} {f : α → Except Fault β} {b : β} :
    x >>= f = .ok b ↔ ∃ a, x = .ok a ∧ f a = .ok b := by
  cases x with
  | error fault =>
    constructor
    · rintro ⟨⟩
    · rintro ⟨_, ⟨⟩, -⟩
  | ok a =>
    constructor
    · exact fun h => ⟨a, rfl, h⟩
    · rintro ⟨_, ⟨⟩, h⟩
      exact h

theorem bind_eq_error_iff {α β : Type} {x : Except Fault α} {f : α → Except Fault β} {e : Fault} :
    x >>= f = .error e ↔ x = .error e ∨ ∃ a, x = .ok a ∧ f a = .error e := by
  cases x with
  | error fault =>
    constructor
    · rintro ⟨⟩
      exact .inl rfl
    · rintro (⟨⟨⟩⟩ | ⟨_, ⟨⟩, -⟩)
      rfl
  | ok a =>
    constructor
    · exact fun h => .inr ⟨a, rfl, h⟩
    · rintro (⟨⟨⟩⟩ | ⟨_, ⟨⟩, h⟩)
      exact h

/-! ## Segments -/

/-- The segment is the name of something in a directory with these names. -/
structure Names (t : FileTree) (n : Node) (s : List Char) (names : List (String × Node)) :
    Prop where
  search : ∃ above, t.search n = .ok (above, names)
  isName : IsName s
  short : (String.ofList s).utf8ByteSize ≤ maxName

/-- Where a segment leads from an inode. -/
inductive Steps (t : FileTree) (n : Node) (s : List Char) : Except Fault Step → Prop
  | shut {fault : Fault} (h : t.search n = .error fault) : Steps t n s (.error fault)
  | stay {above : Node} {names : List (String × Node)} (h : t.search n = .ok (above, names))
    (hs : s = [] ∨ s = ['.']) : Steps t n s (.ok (.into n))
  | up {above : Node} {names : List (String × Node)} (h : t.search n = .ok (above, names))
    (hs : s = ['.', '.']) : Steps t n s (.ok (.into above))
  | long {above : Node} {names : List (String × Node)} (h : t.search n = .ok (above, names))
    (hs : IsName s) (hlong : maxName < (String.ofList s).utf8ByteSize) :
    Steps t n s (.error .nameTooLong)
  | free {names : List (String × Node)} (h : Names t n s names)
    (hname : names.lookup (String.ofList s) = none) : Steps t n s (.ok (.free (String.ofList s)))
  | through {names : List (String × Node)} {m : Node} {path : String} (h : Names t n s names)
    (hname : names.lookup (String.ofList s) = some m) (hlink : t.link? m = some path) :
    Steps t n s (.ok (.through path))
  | down {names : List (String × Node)} {m : Node} (h : Names t n s names)
    (hname : names.lookup (String.ofList s) = some m) (hlink : t.link? m = none) :
    Steps t n s (.ok (.into m))

theorem steps (t : FileTree) (n : Node) (s : List Char) : Steps t n s (t.step n s) := by
  unfold step
  cases h : t.search n with
  | error fault => exact .shut h
  | ok d =>
    obtain ⟨above, names⟩ := d
    dsimp only [bind, Except.bind]
    split_ifs with hidle hdots hlong
    · exact .stay h (by simpa using hidle)
    · exact .up h hdots
    all_goals
      have hs : IsName s := by
        simp only [Bool.or_eq_true, decide_eq_true_eq, not_or] at hidle
        exact ⟨hidle.1, hidle.2, hdots⟩
    · exact .long h hs hlong
    · have hnames : Names t n s names := ⟨⟨above, h⟩, hs, Nat.le_of_not_lt hlong⟩
      cases hname : names.lookup (String.ofList s) with
      | none => exact .free hnames hname
      | some m =>
        dsimp only
        cases hlink : t.link? m with
        | none => exact .down hnames hname hlink
        | some path => exact .through hnames hname hlink

theorem Names.step_eq (h : Names t n s names) : t.step n s =
    match names.lookup (String.ofList s) with
    | none => .ok (.free (String.ofList s))
    | some m =>
      match t.link? m with
      | some path => .ok (.through path)
      | none => .ok (.into m) := by
  obtain ⟨above, hsearch⟩ := h.search
  have hs := h.isName
  simp only [step, hsearch, hs.ne_nil, hs.ne_dot, hs.ne_dots, h.short.not_gt]
  rfl

theorem Steps.step_eq (h : Steps t n s r) : t.step n s = r := by
  cases h with
  | shut h => simp only [step, h, bind, Except.bind]
  | stay h hs =>
    obtain rfl | rfl := hs
    · simp only [step, h]
      rfl
    · simp only [step, h]
      rfl
  | up h hs =>
    subst hs
    simp only [step, h]
    rfl
  | long h hs hlong =>
    simp only [step, h, hs.ne_nil, hs.ne_dot, hs.ne_dots, hlong]
    rfl
  | free h hname => simp only [h.step_eq, hname]
  | through h hname hlink => simp only [h.step_eq, hname, hlink]
  | down h hname hlink => simp only [h.step_eq, hname, hlink]

/-! ## Places -/

theorem search_eq_ok_iff : t.search n = .ok (above, names) ↔
    ∃ i, t.inodes[n]? = some i ∧ i.object = .directory above names ∧ i.unreadable = none := by
  unfold search
  cases t.inodes[n]? with
  | none => exact iff_of_false nofun nofun
  | some i =>
    obtain ⟨object, unreadable, unwritable, damage⟩ := i
    cases object with
    | directory above' names' => cases unreadable <;> simp
    | file | link => simp

theorem mem_of_lookup {name : String} (h : names.lookup name = some m) : (name, m) ∈ names := by
  obtain ⟨before, after, rfl, -⟩ := List.lookup_eq_some_iff.mp h
  exact List.mem_append_right before List.mem_cons_self

theorem lt_of_mem_nodes (h : t.search n = .ok (above, names))
    (hm : m ∈ (Object.directory above names).nodes) : m < t.inodes.length := by
  obtain ⟨i, hi, hobject, -⟩ := search_eq_ok_iff.mp h
  apply t.closed i (List.mem_of_getElem? hi)
  rwa [hobject]

theorem lt_of_search (h : t.search n = .ok (above, names)) : n < t.inodes.length := by
  obtain ⟨i, hi, -⟩ := search_eq_ok_iff.mp h
  exact (List.getElem?_eq_some_iff.mp hi).1

theorem Names.lt (h : Names t n s names) (hm : names.lookup (String.ofList s) = some m) :
    m < t.inodes.length := by
  obtain ⟨above, hsearch⟩ := h.search
  apply lt_of_mem_nodes hsearch
  exact List.mem_cons_of_mem above (List.mem_map_of_mem (mem_of_lookup hm))

theorem Steps.lt {m : Node} (h : Steps t n s (.ok (.into m))) (hn : n < t.inodes.length) :
    m < t.inodes.length := by
  cases h with
  | stay => exact hn
  | up h => exact lt_of_mem_nodes h List.mem_cons_self
  | down h hname => exact h.lt hname

/-- An inode that is there, or a name that is free. -/
inductive Stands (t : FileTree) : Place → Prop
  | node {n : Node} (h : n < t.inodes.length) : Stands t (.node n)
  | free {d above : Node} {names : List (String × Node)} {name : String}
    (h : t.search d = .ok (above, names)) (hname : names.lookup name = none) :
    Stands t (.free d name)

theorem walk_cons (follow : Node → List (List Char) → Except Fault Place) (n : Node)
    (s : List Char) (ss : List (List Char)) : t.walk follow n (s :: ss) =
      match t.step n s with
      | .error fault => .error fault
      | .ok (.into m) => t.walk follow m ss
      | .ok (.through path) =>
        follow (t.start n path.toList).1 ((t.start n path.toList).2 ++ ss)
      | .ok (.free name) => if ss = [] then .ok (.free n name) else .error .notFound := rfl

theorem start_lt (hn : n < t.inodes.length) (p : List Char) :
    (t.start n p).1 < t.inodes.length := by
  unfold start
  split
  · exact t.root_lt
  · exact hn

theorem stands_walk (hfollow : ∀ n ss, n < t.inodes.length → follow n ss = .ok q → Stands t q)
    (hn : n < t.inodes.length) (h : t.walk follow n ss = .ok q) : Stands t q := by
  induction ss generalizing n with
  | nil =>
    cases h
    exact .node hn
  | cons s ss ih =>
    have hsteps := steps t n s
    rw [walk_cons] at h
    revert h
    generalize t.step n s = r at hsteps
    intro h
    rcases r with fault | (m | path | name)
    · cases h
    · exact ih (hsteps.lt hn) h
    · exact hfollow _ _ (start_lt hn path.toList) h
    · cases hsteps with
      | free h' hname =>
        obtain ⟨above, hsearch⟩ := h'.search
        dsimp only at h
        split_ifs at h
        cases h
        exact .free hsearch hname

theorem resolve_zero (t : FileTree) : t.resolve 0 = t.walk fun _ _ => .error .tooManyLinks := rfl

theorem resolve_succ (t : FileTree) (k : ℕ) : t.resolve (k + 1) = t.walk (t.resolve k) := rfl

theorem stands_resolve (hn : n < t.inodes.length) (h : t.resolve k n ss = .ok q) : Stands t q := by
  induction k generalizing n ss with
  | zero =>
    refine stands_walk (fun _ _ _ hfollow => ?_) hn h
    cases hfollow
  | succ k ih => exact stands_walk (fun _ _ => ih) hn h

theorem stands_locate (h : t.locate path = .ok q) : Stands t q := by
  unfold locate at h
  split_ifs at h
  exact stands_resolve (start_lt t.working_lt _) h

/-! ## Last segments -/

/-- What is found behind paths that differ in their last segments only: these are looked up in one
directory, or fail alike. -/
inductive Parallel (t : FileTree) (f : List Char → Except Fault Place) : Prop
  | directory (k : ℕ) (d : Node) (h : ∀ s, f s = t.resolve k d [s])
  | error (fault : Fault) (h : ∀ s, f s = .error fault)

theorem parallel_walk (hk : t.resolve k = t.walk follow)
    (hfollow : ∀ n ss, Parallel t fun s => follow n (ss ++ [s])) (n : Node)
    (ss : List (List Char)) : Parallel t fun s => t.walk follow n (ss ++ [s]) := by
  induction ss generalizing n with
  | nil => exact .directory k n fun s => by rw [hk]; rfl
  | cons u us ih =>
    simp only [List.cons_append, walk_cons]
    rcases t.step n u with fault | (m | path | name)
    · exact .error fault fun s => rfl
    · exact ih m
    · simp only [← List.append_assoc]
      exact hfollow _ _
    · exact .error .notFound fun s => if_neg (by simp)

theorem parallel_resolve (k : ℕ) (n : Node) (ss : List (List Char)) :
    Parallel t fun s => t.resolve k n (ss ++ [s]) := by
  induction k generalizing n ss with
  | zero => exact parallel_walk t.resolve_zero (fun _ _ => .error _ fun _ => rfl) n ss
  | succ k ih => exact parallel_walk (t.resolve_succ k) ih n ss

theorem segments_slash (p : List Char) : segments ('/' :: p) = [] :: segments p := by
  rw [segments, List.splitOn_cons_eq_if_modifyHead, if_pos (beq_self_eq_true _)]
  rfl

theorem start_of_head_ne_nil {u : List Char} {us : List (List Char)} {p : List Char} (n : Node)
    (h : segments p = u :: us) (hu : u ≠ [] ∨ us = []) : t.start n p = (n, u :: us) := by
  unfold start
  split
  · rename_i p
    rw [segments_slash] at h
    obtain ⟨rfl, rfl⟩ := List.cons.inj h
    exact absurd hu (not_or.mpr ⟨fun hne => hne rfl, List.splitOn_ne_nil _ _⟩)
  · rw [h]

theorem start_of_head_nil {us : List (List Char)} {p : List Char} (n : Node)
    (h : segments p = [] :: us) (hus : us ≠ []) : t.start n p = (t.root, us) := by
  cases p with
  | nil => exact absurd (List.cons.inj h).2.symm hus
  | cons c p =>
    rw [segments, List.splitOn_cons_eq_if_modifyHead] at h
    split_ifs at h with hc
    · obtain rfl := beq_iff_eq.mp hc
      rw [← (List.cons.inj h).2]
      rfl
    · obtain ⟨u, us', hsplit⟩ := List.exists_cons_of_ne_nil (List.splitOn_ne_nil '/' p)
      rw [hsplit] at h
      cases h

/-- Where a path starts depends on the segments before the last one. -/
theorem exists_start (t : FileTree) (n : Node) (ss : List (List Char)) : ∃ m us, ∀ p s,
    segments p = ss ++ [s] → t.start n p = (m, us ++ [s]) := by
  rcases ss with - | ⟨_ | ⟨c, u⟩, us⟩
  · exact ⟨n, [], fun p s h => start_of_head_ne_nil n h (.inr rfl)⟩
  · exact ⟨t.root, us, fun p s h => start_of_head_nil n h (by simp)⟩
  · exact ⟨n, (c :: u) :: us, fun p s h => start_of_head_ne_nil n h (.inl (List.cons_ne_nil _ _))⟩

/-! ## Trees without links -/

def IsDirectory (t : FileTree) (n : Node) : Prop :=
  ∃ i above names, t.inodes[n]? = some i ∧ i.object = .directory above names

/-- There are no symbolic links, no inode has two names in a directory, and what is above one is a
directory. -/
structure Plain (t : FileTree) : Prop where
  unlinked : ∀ n, t.link? n = none
  nodup : ∀ n above names, t.search n = .ok (above, names) → (names.map (·.2)).Nodup
  above : ∀ n above names, t.search n = .ok (above, names) → t.IsDirectory above

theorem isDirectory_of_search (h : t.search n = .ok (above, names)) : t.IsDirectory n := by
  obtain ⟨i, hi, hobject, -⟩ := search_eq_ok_iff.mp h
  exact ⟨i, above, names, hi, hobject⟩

theorem Plain.of_resolve (h : t.Plain) (hq : t.resolve k d [s] = .ok q) :
    (∃ n, q = .node n ∧ t.IsDirectory n) ∨ ∃ names, Names t d s names ∧
      (q = .free d (String.ofList s) ∨
        ∃ m, q = .node m ∧ names.lookup (String.ofList s) = some m) := by
  have hwalk : ∃ follow, t.walk follow d [s] = .ok q := by
    cases k with
    | zero => exact ⟨_, hq⟩
    | succ k => exact ⟨_, hq⟩
  obtain ⟨follow, hwalk⟩ := hwalk
  rw [walk_cons] at hwalk
  have hsteps := steps t d s
  revert hwalk
  generalize t.step d s = r at hsteps
  intro hwalk
  cases hsteps with
  | shut | long => cases hwalk
  | stay hsearch =>
    cases hwalk
    exact .inl ⟨d, rfl, isDirectory_of_search hsearch⟩
  | up hsearch =>
    cases hwalk
    exact .inl ⟨_, rfl, h.above _ _ _ hsearch⟩
  | free hnames =>
    cases hwalk
    exact .inr ⟨_, hnames, .inl rfl⟩
  | through _ _ hlink => cases (h.unlinked _).symm.trans hlink
  | down hnames hname =>
    cases hwalk
    exact .inr ⟨_, hnames, .inr ⟨_, rfl, hname⟩⟩

theorem lookup_injective {name name' : String} (hnodup : (names.map (·.2)).Nodup)
    (h : names.lookup name = some m) (h' : names.lookup name' = some m) : name = name' := by
  have hpair := List.inj_on_of_nodup_map hnodup (mem_of_lookup h) (mem_of_lookup h') rfl
  exact congrArg Prod.fst hpair

/-- Paths that differ in their last segments only lead to one place only if it is a directory. -/
theorem Plain.isDirectory_of_locate (h : t.Plain) (hpath : segments path.toList = ss ++ [s])
    (hpath' : segments path'.toList = ss ++ [s']) (hne : ¬ (s = s' ∧ IsName s))
    (hq : t.locate path = .ok q) (hq' : t.locate path' = .ok q) :
    ∃ n, q = .node n ∧ t.IsDirectory n := by
  obtain ⟨m, us, hstart⟩ := exists_start t t.working ss
  unfold locate at hq hq'
  split_ifs at hq hq'
  rw [hstart _ _ hpath] at hq
  rw [hstart _ _ hpath'] at hq'
  dsimp only at hq hq'
  obtain ⟨k, d, hd⟩ | ⟨fault, herror⟩ := t.parallel_resolve maxLinks m us
  · rw [hd] at hq hq'
    obtain hdir | ⟨names, hnames, hs⟩ := h.of_resolve hq
    · exact hdir
    obtain hdir | ⟨names', hnames', hs'⟩ := h.of_resolve hq'
    · exact hdir
    obtain ⟨above, hsearch⟩ := hnames.search
    obtain ⟨_, hsearch'⟩ := hnames'.search
    obtain ⟨-, rfl⟩ := Prod.mk.inj (Except.ok.inj (hsearch.symm.trans hsearch'))
    exfalso
    refine hne ⟨String.ofList_inj.mp ?_, hnames.isName⟩
    obtain rfl | ⟨m, rfl, hm⟩ := hs
    · obtain hfree | ⟨m, hm, -⟩ := hs'
      · exact (Place.free.inj hfree).2
      · cases hm
    · obtain hfree | ⟨m', hm', hlookup⟩ := hs'
      · cases hfree
      · obtain rfl := Place.node.inj hm'
        exact lookup_injective (h.nodup _ _ _ hsearch) hm hlookup
  · cases (herror s).symm.trans hq

end LoadReport.FileTree

import LoadReport.Proofs.FileTree.Writing
import LoadReport.Proofs.Report.Sink
import LoadReport.Session

/-! # What an action does

The steps of an action are taken one after another until one of them ends the run. What it yields is
its answer, the files it leaves, and what it tries to print; the log is of no consequence. An action
is quiet if it prints nothing and leaves the files as they are.
-/

namespace LoadReport

open Report

variable {ε ε' α β : Type}

section Run

variable {x : Process ε α} {f : α → Process ε β} {a : α} {e : ε}
  {σ σ' : Session}

theorem run_bind_ok (hx : x.run σ = (.ok a, σ')) : (x >>= f).run σ = (f a).run σ' := by
  change ExceptT.bindCont f (x.run σ).1 (x.run σ).2 = _
  rw [hx]
  rfl

theorem run_bind_error (hx : x.run σ = (.error e, σ')) : (x >>= f).run σ = (.error e, σ') := by
  change ExceptT.bindCont f (x.run σ).1 (x.run σ).2 = _
  rw [hx]
  rfl

end Run

/-! ## Yields -/

variable {room : Option Limit} {t t' t'' : FileTree} {text text' text'' s path : String}

/-- The output when a text has been printed, of which not all may have been accepted. -/
def printed (room : Option Limit) (text : String) : Sink where
  accepted := (part room text).toArray
  limit := after room text

theorem printed_empty (room : Option Limit) : printed room "" = { limit := room } := by
  rw [printed, part_empty, after_empty]

/-- On the files `t`, after a text has been printed, the action answers `r`, leaves the files `t'`,
and goes on with the text as far as `text'`. -/
def Yields (room : Option Limit) (x : Process ε α) (t : FileTree) (text : String)
    (r : Except ε α) (t' : FileTree) (text' : String) : Prop :=
  ∀ log, ∃ log', x.run ⟨t, printed room text, log⟩ = (r, ⟨t', printed room text', log'⟩)

section Yields

variable {x : Process ε α} {f : α → Process ε β} {a : α} {e : ε}
  {r : Except ε β}

theorem yields_pure (a : α) (t : FileTree) (text : String) :
    Yields room (pure a : Process ε α) t text (.ok a) t text :=
  fun log => ⟨log, rfl⟩

theorem Yields.bind (hx : Yields room x t text (.ok a) t' text')
    (hf : Yields room (f a) t' text' r t'' text'') : Yields room (x >>= f) t text r t'' text'' := by
  intro log
  obtain ⟨log', h⟩ := hx log
  obtain ⟨log'', h'⟩ := hf log'
  exact ⟨log'', (run_bind_ok h).trans h'⟩

theorem Yields.bind_error (hx : Yields room x t text (.error e) t' text') :
    Yields room (x >>= f) t text (.error e) t' text' := by
  intro log
  obtain ⟨log', h⟩ := hx log
  exact ⟨log', run_bind_error h⟩

/-- A failure may be one of more things that can end a run. -/
theorem Yields.adapt {r : Except ε α} (hx : Yields room x t text r t' text') (g : ε → ε') :
    Yields room (x.adapt g) t text (r.mapError g) t' text' := by
  intro log
  obtain ⟨log', h⟩ := hx log
  refine ⟨log', ?_⟩
  change ((x.run _).1.mapError g, (x.run _).2) = _
  rw [h]

end Yields

theorem run_printed {x : Writer α} {a : α} (hx : Writes x s a) (h : fits room text = .ok ()) :
    x.run.run (printed room text) =
      ((fits room (text ++ s)).map fun _ => a, printed room (text ++ s)) := by
  have haccepted : (part room text).toArray ++ part (after room text) s =
      (part room (text ++ s)).toArray := by
    rw [part_append h]
    exact Array.ext' (by simp)
  rw [printed, hx.direct, haccepted, printed, fits_append h, after_append]

namespace Process

theorem run_ofFault (stop : Fault → ε) (a : Except Fault α) (σ : Session) :
    (ofFault stop a).run σ = (a.mapError stop, σ) := by
  cases a <;> rfl

theorem yields_print (stop : Fault → ε) {x : Writer Unit} (hx : Writes x s ())
    (h : fits room text = .ok ()) (t : FileTree) :
    Yields room (print stop x) t text ((fits room (text ++ s)).mapError stop) t (text ++ s) := by
  intro log
  let σ : Session := ⟨t, printed room text, log⟩
  have hrun : (print stop x).run σ = (ofFault stop (x.run.run σ.stdout).1).run
      { σ with stdout := (x.run.run σ.stdout).2 } := rfl
  refine ⟨log, hrun.trans ?_⟩
  rw [run_ofFault, run_printed hx h, map_fits]

end Process

namespace Action

open Process (ofFault run_ofFault)

variable {x : Action α} {f : α → Action β} {a : α} {e : Failure}
  {r r' : FileTree → Except Failure α} {g : α → FileTree → Except Failure β}
  {fault : Fault} {n : Node}

theorem run_writeFile {x : Writer α} (path : String) (σ : Session) : (writeFile path x).run σ =
    match σ.files.create path with
    | .error fault => (.error (.write path fault), σ)
    | .ok (files, n) =>
      let written := (do
        let a ← x
        flush
        return a : Writer α).run.run { limit := files.limit, buffer := some ⟨bufferSize, #[]⟩ }
      let last := (flush.run.run written.2).2
      (written.1.mapError (.write path),
        { σ with files := files.close n last.accepted.toList last.limit }) := by
  have hfiles : files.run σ = (.ok σ.files, σ) := rfl
  rw [writeFile, run_bind_ok hfiles]
  cases σ.files.create path with
  | error fault => rfl
  | ok opened => exact run_ofFault _ _ _

theorem yields_writeFile_error {x : Writer α} (h : t.create path = .error fault) (text : String) :
    Yields room (writeFile path x) t text (.error (.write path fault)) t text := by
  intro log
  refine ⟨log, (run_writeFile path _).trans ?_⟩
  simp only [h]

/-- A file gets as much of the text as there is room for. -/
theorem yields_writeFile {x : Writer α} (hx : Writes x s a) (h : t.create path = .ok (t', n))
    (room : Option Limit) (text : String) : Yields room (writeFile path x) t text
      (((fits t.limit s).map fun _ => a).mapError (.write path))
      (t'.close n (part t.limit s) (after t.limit s)) text := by
  intro log
  obtain ⟨σ, hrun, haccepted, hlimit⟩ := hx.flushed t.limit bufferSize
  refine ⟨log, (run_writeFile path _).trans ?_⟩
  simp only [h, FileTree.limit_create h, hrun, haccepted, hlimit]

/-! ## Quiet actions -/

/-- What an action answers at the start of a session on some files. -/
def result (x : Action α) (files : FileTree) : Except Failure α := (x.run { files }).1

/-- The action answers what the files make of `r`, and does nothing else but keep its log. -/
def Answers (x : Action α) (r : FileTree → Except Failure α) : Prop :=
  ∀ σ : Session, ∃ log, x.run σ = (r σ.files, { σ with log })

/-- The action only looks at the files. -/
def Quiet (x : Action α) : Prop := Answers x x.result

theorem Answers.result_eq (h : Answers x r) : x.result = r := by
  funext t
  obtain ⟨log, hrun⟩ := h { files := t }
  rw [result, hrun]

theorem Answers.quiet (h : Answers x r) : Quiet x := by
  unfold Quiet
  rwa [h.result_eq]

theorem Answers.congr (h : Answers x r) (hr : ∀ t, r t = r' t) : Answers x r' := by
  obtain rfl : r = r' := funext hr
  exact h

theorem answers_pure (a : α) : Answers (pure a) fun _ => .ok a := fun σ => ⟨σ.log, rfl⟩

theorem answers_throw (e : Failure) : Answers (throw e : Action α) fun _ => .error e :=
  fun σ => ⟨σ.log, rfl⟩

theorem answers_log (record : Log.Record) : Answers (log record) fun _ => .ok () :=
  fun σ => ⟨record :: σ.log, rfl⟩

theorem answers_files : Answers files .ok := fun σ => ⟨σ.log, rfl⟩

theorem answers_ofFault (failure : Fault → Failure) (a : Except Fault α) :
    Answers (ofFault failure a) fun _ => a.mapError failure := by
  cases a with
  | ok a => exact answers_pure a
  | error fault => exact answers_throw (failure fault)

theorem Answers.bind (hx : Answers x r) (hf : ∀ a, Answers (f a) (g a)) :
    Answers (x >>= f) fun t => r t >>= fun a => g a t := by
  intro σ
  obtain ⟨log, h⟩ := hx σ
  change ∃ log, (x >>= f).run σ = (r σ.files >>= fun a => g a σ.files, { σ with log })
  cases hr : r σ.files with
  | error e =>
    rw [hr] at h
    exact ⟨log, run_bind_error h⟩
  | ok a =>
    rw [hr] at h
    obtain ⟨log', h'⟩ := hf a { σ with log }
    exact ⟨log', (run_bind_ok h).trans h'⟩

theorem Answers.yields (hx : Answers x r) (room : Option Limit) (t : FileTree) (text : String) :
    Yields room x t text (r t) t text := fun log => hx ⟨t, printed room text, log⟩

end Action

end LoadReport

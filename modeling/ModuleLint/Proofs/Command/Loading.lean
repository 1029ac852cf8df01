import ModuleLint.Command.Session
import ModuleLint.Proofs.Grammar.ScriptProgress
import ModuleLint.Proofs.Token.Reading
import ModuleLint.Proofs.Token.Scan

/-!
What becomes of a file.

A file that is loaded adds one script, or it cannot be opened, or its text is no script. In the last
two cases errors are written, at least one, and they are counted as they are written.
-/

namespace ModuleLint

/-! ### Sources that hold no script -/

/-- A list of tokens that is no script has a fault. -/
lemma Grammar.script_error {name : Bytes} {tokens : List Token} (h : EndsOnce tokens)
    {faults : List SyntaxFault} (hs : script name tokens = .error faults) : faults ≠ [] := by
  cases tokens with
  | nil => cases h
  | cons first rest =>
    have few : (start first rest).ahead.length < rest.length + 2 := by
      change rest.length < _
      omega
    obtain ⟨n, t, hr, -⟩ := @scriptReader_toEnd _ name (start first rest) h few
    rw [script, hr] at hs
    dsimp only at hs
    split at hs
    · cases hs
    case isFalse some =>
      cases hs
      intro none
      rw [none] at some
      exact some rfl

/-- A source that holds no script has a fault. -/
lemma Source.faults_ne_nil {s : Source} {failure : ParseFailure} (h : s.script = .error failure) :
    failure.faults ≠ [] := by
  unfold script at h
  dsimp only at h
  split at h
  · cases hs : Grammar.script s.name s.tokens.tokens with
    | ok n =>
      rw [hs] at h
      cases h
    | error faults =>
      rw [hs] at h
      cases h
      exact Grammar.script_error (TokenList.scanFrom_endsOnce _ _ _ _) hs
  · case isFalse some =>
    cases h
    intro none
    rw [ParseFailure.faults, List.map_eq_nil_iff] at none
    rw [none] at some
    exact some rfl

/-! ### Outcomes -/

/-- What becomes of a file that is loaded. -/
inductive FileOutcome
  | script (n : Node)
  | unreadable (path : Bytes)
  | faulty (failure : ParseFailure)

namespace FileOutcome

/-- What becomes of the file that a path leads to. -/
def ofPath (files : FileLookup) (path : Bytes) : FileOutcome :=
  match files path with
  | .error _ => .unreadable path
  | .ok t =>
    match (Source.mk path t.content).script with
    | .ok n => .script n
    | .error failure => .faulty failure

def script? : FileOutcome → Option Node
  | .script n => some n
  | _ => none

def ioErrors : FileOutcome → Nat
  | .unreadable _ => 1
  | _ => 0

def parseErrors : FileOutcome → Nat
  | .faulty failure => failure.faults.length
  | _ => 0

/-- The errors that are written. -/
def diagnostics : FileOutcome → List Diagnostic
  | .script _ => []
  | .unreadable path =>
    [Session.plainError (ascii "E002") (ascii "cannot open file: " ++ path)]
  | .faulty failure => failure.faults.map Diagnostic.ofSyntaxFault

variable {o : FileOutcome}

lemma severity_of_diagnostics : ∀ d ∈ o.diagnostics, d.severity = .error := by
  cases o with
  | script n => nofun
  | unreadable path => exact List.forall_mem_singleton.mpr rfl
  | faulty failure =>
    intro d hd
    obtain ⟨f, -, rfl⟩ := List.mem_map.mp hd
    rfl

lemma length_diagnostics (o : FileOutcome) : o.diagnostics.length = o.ioErrors + o.parseErrors := by
  cases o with
  | script n => rfl
  | unreadable path => rfl
  | faulty failure => simp [diagnostics, ioErrors, parseErrors]

/-- A file that adds no script leaves an error. -/
lemma diagnostics_ne_nil {files : FileLookup} {path : Bytes}
    (h : (ofPath files path).script? = none) : (ofPath files path).diagnostics ≠ [] := by
  unfold ofPath at h ⊢
  split
  · exact List.cons_ne_nil _ _
  case h_2 t ht =>
    rw [ht] at h
    dsimp only at h ⊢
    split
    case h_1 n hn =>
      rw [hn] at h
      cases h
    case h_2 failure hf =>
      rw [diagnostics, ne_eq, List.map_eq_nil_iff]
      exact Source.faults_ne_nil hf

end FileOutcome

/-! ### Writing -/

namespace Session

/-- Some diagnostics are written and counted. -/
structure Writes (s s' : Session) (out : List Output) (l : List Diagnostic) : Prop where
  format : s'.emitter.format = s.emitter.format
  errors : s'.emitter.errors = s.emitter.errors + l.countP (·.severity == .error)
  texts : ∀ d ∈ l, ∃ e : Emitter, e.format = s.emitter.format ∧ .text (e.render d) ∈ out

variable {s s' s'' : Session} {out out' : List Output} {l l' : List Diagnostic}

lemma writes_nil (s : Session) (out : List Output) : Writes s s out [] := ⟨rfl, rfl, nofun⟩

lemma Writes.append (h : Writes s s' out l) (h' : Writes s' s'' out' l') :
    Writes s s'' (out ++ out') (l ++ l') := by
  refine ⟨h'.format.trans h.format, ?_, fun d hd => ?_⟩
  · rw [h'.errors, h.errors, List.countP_append, Nat.add_assoc]
  · rcases List.mem_append.mp hd with hd | hd
    · obtain ⟨e, he, shown⟩ := h.texts d hd
      exact ⟨e, he, List.mem_append_left _ shown⟩
    · obtain ⟨e, he, shown⟩ := h'.texts d hd
      exact ⟨e, he.trans h.format, List.mem_append_right _ shown⟩

/-- A record that is logged before. -/
lemma Writes.record (h : Writes s s' out l) (o : Output) : Writes s s' (o :: out) l :=
  (writes_nil s [o]).append h

lemma emit_writes (s : Session) (d : Diagnostic) : Writes s (s.emit d).1 (s.emit d).2 [d] := by
  refine ⟨?_, ?_, List.forall_mem_singleton.mpr ⟨s.emitter, rfl, List.mem_singleton_self _⟩⟩
  · change (s.emitter.counting d).format = _
    unfold Emitter.counting
    split <;> rfl
  · change (s.emitter.counting d).errors = _
    unfold Emitter.counting
    cases hd : d.severity <;> simp [hd]

lemma emitAll_writes (s : Session) (l : List Diagnostic) :
    Writes s (s.emitAll l).1 (s.emitAll l).2 l := by
  induction l generalizing s with
  | nil => exact writes_nil s []
  | cons d l ih => exact (s.emit_writes d).append (ih (s.emit d).1)

/-- Only the emitter is changed by writing. -/
lemma emitAll_eq (s : Session) (l : List Diagnostic) :
    (s.emitAll l).1 = { s with emitter := (s.emitAll l).1.emitter } := by
  induction l generalizing s with
  | nil => rfl
  | cons d l ih => exact ih (s.emit d).1

/-! ### Loading -/

/-- The session has what becomes of a file. -/
structure Loads (s : Session) (o : FileOutcome) (s' : Session) (out : List Output) : Prop where
  scripts : s'.scripts = s.scripts ++ o.script?.toList
  ioErrors : s'.ioErrors = s.ioErrors + o.ioErrors
  parseErrors : s'.parseErrors = s.parseErrors + o.parseErrors
  writes : Writes s s' out o.diagnostics

lemma addSource_loads (s : Session) {source : Source} {o : FileOutcome}
    (ok : ∀ n, source.script = .ok n → o = .script n)
    (error : ∀ failure, source.script = .error failure → o = .faulty failure) :
    s.Loads o (s.addSource source).1 (s.addSource source).2 := by
  unfold addSource
  cases hs : source.script with
  | ok n =>
    rw [ok n hs]
    exact ⟨rfl, rfl, rfl, rfl, rfl, nofun⟩
  | error failure =>
    rw [error failure hs]
    dsimp only
    let before : Session :=
      { s with
        emitter := s.emitter.addSource source
        parseErrors := s.parseErrors + failure.faults.length }
    let l := failure.faults.map Diagnostic.ofSyntaxFault
    have writes := before.emitAll_writes l
    have scripts := congrArg Session.scripts (before.emitAll_eq l)
    have ioErrors := congrArg Session.ioErrors (before.emitAll_eq l)
    have parseErrors := congrArg Session.parseErrors (before.emitAll_eq l)
    refine ⟨?_, ioErrors, parseErrors, writes.format, writes.errors, (writes.record _).texts⟩
    exact scripts.trans (List.append_nil _).symm

/-- What a path leads to is loaded. -/
lemma load_loads (files : FileLookup) (s : Session) (path : Bytes) :
    s.Loads (.ofPath files path) (s.load files path).1 (s.load files path).2 := by
  unfold load FileOutcome.ofPath
  cases files path with
  | error e =>
    have writes := { s with ioErrors := s.ioErrors + 1 }.emit_writes
      (plainError (ascii "E002") (ascii "cannot open file: " ++ path))
    exact ⟨(List.append_nil _).symm, rfl, rfl, writes.format, writes.errors, writes.texts⟩
  | ok t =>
    refine s.addSource_loads (fun n hn => ?_) fun failure hf => ?_
    · dsimp only
      rw [hn]
    · dsimp only
      rw [hf]

end Session

end ModuleLint

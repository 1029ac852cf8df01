import ModuleLint.Proofs.Grammar.Concatenation
import ModuleLint.Proofs.Grammar.Regular
import ModuleLint.Proofs.Grammar.ScriptProgress
import ModuleLint.Proofs.Grammar.ScriptTrace

/-!
Faults in a block.

A statement that cannot be read is skipped: at least one token is taken, and then tokens up to a
place where a statement may start. Brackets are not counted on the way. As long as what is taken for
each faulty statement of a block closes the brackets that it opens and no others, all faults start
inside the block, and what follows the block is read as if there were none.
-/

namespace ModuleLint

open Reader

/-! ### Faults recorded before -/

/-- The state with no fault recorded. -/
def ReaderState.forgetting (s : ReaderState) : ReaderState := { s with faults := [] }

namespace Reader

section Forgetting

variable {α : Type} {p : Reader α} [Regular p] {s t : ReaderState} {a : α}

lemma recording_forgetting (s : ReaderState) : s.forgetting.recording s.faults = s := by
  simp [ReaderState.forgetting, ReaderState.recording]

/-- What is read where faults were recorded before is read without them. -/
lemma Regular.forgetting (run : p s = .ok a t) :
    ∃ u, p s.forgetting = .ok a u ∧ t = u.recording s.faults := by
  have same := Regular.recording (p := p) s.faults s.forgetting
  rw [recording_forgetting, run] at same
  cases hr : p s.forgetting with
  | ok b u =>
    rw [hr] at same
    cases same
    exact ⟨u, rfl, rfl⟩
  | fault fault u => rw [hr] at same; cases same
  | stuck => rw [hr] at same; cases same

/-- What is read without faults is read where faults were recorded before. -/
lemma Regular.remembering (run : p s.forgetting = .ok a t) :
    p s = .ok a (t.recording s.faults) := by
  have same := Regular.recording (p := p) s.faults s.forgetting
  rw [recording_forgetting, run] at same
  exact same

end Forgetting

end Reader

/-! ### Brackets -/

/-- Whether between the states all brackets that are opened are closed, and no others. -/
def ReaderState.encloses (s t : ReaderState) : Bool :=
  t.tokens.isSuffixOf s.tokens &&
    depthAfter 0 (s.tokens.take (s.tokens.length - t.tokens.length)) == some 0

lemma ReaderState.encloses_iff {s t : ReaderState} : s.encloses t ↔ s.Encloses t := by
  rw [encloses, Encloses, Bool.and_eq_true, beq_iff_eq, List.isSuffixOf_iff_suffix]
  constructor
  · rintro ⟨⟨taken, split⟩, nested⟩
    rw [← split, List.length_append, Nat.add_sub_cancel, List.take_left] at nested
    exact ⟨taken, split.symm, nested⟩
  · rintro ⟨taken, split, nested⟩
    refine ⟨⟨taken, split.symm⟩, ?_⟩
    rw [split, List.length_append, Nat.add_sub_cancel, List.take_left]
    exact nested

section Brackets

variable {l taken rest behind : List Token} {t : Token}

lemma depthAfter_closing (rest : List Token) (h : t.kind = .rbrace) :
    depthAfter 0 (t :: rest) = none := by
  rw [depthAfter, h]
  rfl

/-- Tokens that close their brackets before a brace do not reach over it. -/
lemma exists_append_of_nested (closes : t.kind = .rbrace) (inside : depthAfter 0 l = some 0)
    (nested : depthAfter 0 taken = some 0) (split : l ++ t :: rest = taken ++ behind) :
    ∃ l', l = taken ++ l' ∧ behind = l' ++ t :: rest ∧ depthAfter 0 l' = some 0 := by
  rcases List.append_eq_append_iff.mp split with ⟨across, rfl, same⟩ | ⟨l', rfl, rfl⟩
  · cases across with
    | nil => exact ⟨[], by simp, same.symm, rfl⟩
    | cons u across =>
      cases same
      rw [depthAfter_append, inside] at nested
      exact absurd (nested.symm.trans (depthAfter_closing _ closes)) (Option.some_ne_none 0)
  · rw [depthAfter_append, nested] at inside
    exact ⟨l', rfl, rfl, inside⟩

end Brackets

namespace Grammar

/-! ### Turns -/

/-- Whether among the next statements, `bound` at most, what is taken for one with a fault closes
the brackets that it opens and no others. -/
def skipsNested (statement : Reader Node) (ends : List TokenKind) : Nat → ReaderState → Bool
  | 0, _ => true
  | bound + 1, s =>
    match statementTurn statement ends s with
    | .ok (.more _) t =>
      (t.faults == s.faults || s.encloses t) && skipsNested statement ends bound t
    | _ => true

lemma skipsNested_more {statement : Reader Node} {ends : List TokenKind} {bound : Nat}
    {s t : ReaderState} {items : List Node} (h : skipsNested statement ends (bound + 1) s)
    (run : statementTurn statement ends s = .ok (.more items) t) :
    (t.faults = s.faults ∨ s.Encloses t) ∧ skipsNested statement ends bound t := by
  rw [skipsNested, run, Bool.and_eq_true, Bool.or_eq_true, beq_iff_eq,
    ReaderState.encloses_iff] at h
  exact h

/-- Each fault that was recorded between the states starts where one of the tokens does. -/
def FaultsAmong (l : List Token) (s t : ReaderState) : Prop :=
  ∀ f ∈ t.faults, f ∈ s.faults ∨ ∃ x ∈ l, f.span.start = x.span.start

/-- The state stands before tokens `l` of a block, behind which its brace closes. -/
structure InBlock (closing : Token) (behind l : List Token) (s : ReaderState) : Prop where
  tokens : s.tokens = l ++ closing :: behind
  nested : depthAfter 0 l = some 0
  allowsIn : s.allowsIn = true
  once : EndsOnce s.tokens

section Turns

variable {depth : Nat} {ends : List TokenKind} {s t u : ReaderState} {turn : Turn}
  {l m behind : List Token} {closing x : Token}

lemma FaultsAmong.trans (h : FaultsAmong l s t) (h' : FaultsAmong m t u) :
    FaultsAmong (l ++ m) s u := by
  intro f hf
  rcases h' f hf with old | ⟨x, hx, start⟩
  · rcases h f old with older | ⟨x, hx, start⟩
    · exact .inl older
    · exact .inr ⟨x, List.mem_append_left m hx, start⟩
  · exact .inr ⟨x, List.mem_append_right l hx, start⟩

lemma exists_mem_of_startsAt {k : Nat} {span : Span} (short : k < l.length)
    (starts : StartsAt (l ++ m) k span) : ∃ x ∈ l, span.start = x.span.start := by
  obtain ⟨x, hx, same⟩ := starts
  rw [List.getElem?_append_left short] at hx
  exact ⟨x, List.mem_of_getElem? hx, same⟩

/-- A turn without a new fault closes the brackets that it opens. -/
lemma encloses_of_statementTurn (run : statementTurn (read depth .statement) ends s = .ok turn t)
    (clean : t.faults = s.faults) (atEnd : HasEnd t.tokens) : s.Encloses t := by
  obtain ⟨v, again, rfl⟩ := Regular.forgetting run
  have none : v.faults = [] := List.append_right_eq_self.mp clean
  have survives := statementTurn_survives (k := .fresh) (n := 0) (.inr rfl)
    (read_survives .keeping (Nat.le_refl depth) .statement 0) ends
  obtain ⟨-, runs⟩ := survives _ turn v trivial again none
  exact (runs atEnd (Edit.known_respanning nofun)).nested

/-- The faults of a turn start at tokens that it takes, unless it reaches the end of the text. -/
lemma faults_of_statementTurn (once : EndsOnce s.tokens)
    (run : statementTurn (read depth .statement) ends s = .ok turn t)
    (split : s.tokens = l ++ t.tokens) (inside : t.ahead ≠ []) : FaultsAmong l s t := by
  have before : s.Before s.tokens 0 := ⟨rfl, fun positive => absurd positive (Nat.lt_irrefl 0)⟩
  have traces : Traces s.tokens 0 0 (fun j u => Node.EachLies s.tokens 0 j u.items)
      (statementTurn (read depth .statement) ends) :=
    traces_statementTurn (Nat.le_refl 0) (read_traces s.tokens 0 depth .statement 0)
  have trace := traces once (Nat.le_refl 0) s before
  rw [run] at trace
  obtain ⟨j, -, stands, records, -⟩ := trace
  have size := congrArg List.length stands.tokens
  have whole := congrArg List.length split
  have some := List.length_pos_iff.mpr inside
  have within := stands.lt
  simp only [ReaderState.tokens, List.length_drop, List.length_append, List.length_cons]
    at size whole within
  intro f hf
  rcases records f hf with old | ⟨k, -, -, short, starts⟩
  · exact .inl old
  · have few : k < l.length := by
      have := short (by simp only [ReaderState.tokens, List.length_cons]; omega)
      omega
    rw [split] at starts
    exact .inr (exists_mem_of_startsAt few starts)

lemma statementTurn_more (once : EndsOnce s.tokens) (few : s.ahead.length < depth)
    (inside : (.eof :: ends).contains s.current.kind = false) :
    ∃ items t, statementTurn (read depth .statement) ends s = .ok (.more items) t ∧
      t.tokens <:+ s.tokens ∧ t.ahead.length < s.ahead.length := by
  have notEnd : s.current.kind ≠ .eof := by
    intro atEnd
    rw [atEnd] at inside
    simp at inside
  obtain ⟨items, t, run, suffix, fewer⟩ :=
    recovering_inside (read_takes depth .statement) once few notEnd
  have notFound : isAtAny (.eof :: ends) s = .ok false s := congrArg (Reply.ok · s) inside
  refine ⟨items, t, ?_, suffix, fewer⟩
  unfold statementTurn
  exact (bind_of_ok notFound).trans (bind_of_ok run)

lemma statementTurn_last (statement : Reader Node) (closes : s.current.kind = .rbrace) :
    statementTurn statement [.rbrace] s = .ok (.last []) s := by
  have found : isAtAny [.eof, .rbrace] s = .ok true s := by
    simp [isAtAny, look, closes]
  unfold statementTurn
  exact bind_of_ok found

/-- A turn at a block's statements leaves a later part of the block, if the brackets are closed that
are opened in what it takes for a fault. -/
lemma InBlock.next (h : InBlock closing behind (x :: l) s) (closes : closing.kind = .rbrace)
    (more : behind ≠ []) (deep : s.ahead.length < depth)
    (skips : ∀ items t, statementTurn (read depth .statement) [.rbrace] s = .ok (.more items) t →
      t.faults = s.faults ∨ s.Encloses t) :
    ∃ items t taken left,
      statementTurn (read depth .statement) [.rbrace] s = .ok (.more items) t ∧
      t.ahead.length < s.ahead.length ∧ x :: l = taken ++ left ∧ InBlock closing behind left t ∧
      FaultsAmong taken s t := by
  have here : s.current = x := (List.cons.inj h.tokens).1
  have inside : [TokenKind.eof, .rbrace].contains s.current.kind = false := by
    obtain ⟨d, hd, -⟩ := Option.bind_eq_some_iff.mp h.nested
    have notEnd := ne_eof_of_depthAfter hd
    have notClosing : x.kind ≠ .rbrace := fun same => by
      have none := depthAfter_closing l same
      rw [h.nested] at none
      cases none
    simp [here, notEnd, notClosing]
  obtain ⟨items, t, run, suffix, fewer⟩ := statementTurn_more h.once deep inside
  have once : EndsOnce t.tokens := h.once.suffix suffix (List.cons_ne_nil _ _)
  have encloses : s.Encloses t := by
    rcases skips items t run with clean | encloses
    · exact encloses_of_statementTurn run clean (hasEnd_of_endsOnce once)
    · exact encloses
  obtain ⟨taken, split, closed⟩ := encloses
  obtain ⟨left, same, tokens, nested⟩ :=
    exists_append_of_nested closes h.nested closed (h.tokens.symm.trans split)
  have leaves : t.allowsIn = true := by
    have regular : Regular (statementTurn (read depth .statement) [.rbrace]) := inferInstance
    have allowed := regular.allowsIn s h.allowsIn
    rw [run] at allowed
    exact allowed
  have some : t.ahead ≠ [] := by
    have size := congrArg List.length tokens
    have positive := List.length_pos_iff.mpr more
    simp only [ReaderState.tokens, List.length_append, List.length_cons] at size
    exact List.ne_nil_of_length_pos (by omega)
  exact ⟨items, t, taken, left, run, fewer, same, ⟨tokens, nested, leaves, once⟩,
    faults_of_statementTurn h.once run split some⟩

/-- Where each faulty statement is skipped with its brackets, a block's statements end at its brace,
and their faults start before it. -/
lemma InBlock.toClosing {bound : Nat} (h : InBlock closing behind l s)
    (closes : closing.kind = .rbrace) (more : behind ≠ []) (deep : s.ahead.length < depth)
    (long : s.ahead.length < bound)
    (skips : skipsNested (read depth .statement) [.rbrace] bound s) :
    ∃ items t,
      repeatedAtMost (statementTurn (read depth .statement) [.rbrace]) bound s = .ok items t ∧
      InBlock closing behind [] t ∧ FaultsAmong l s t := by
  induction bound generalizing s l with
  | zero => omega
  | succ bound ih =>
    cases l with
    | nil =>
      have here : s.current = closing := (List.cons.inj h.tokens).1
      have last := statementTurn_last (read depth .statement) (here ▸ closes)
      exact ⟨[], s, bind_of_ok last, h, fun f hf => .inl hf⟩
    | cons x l =>
      obtain ⟨items, t, taken, left, run, fewer, same, inBlock, faults⟩ :=
        h.next closes more deep fun items t run => (skipsNested_more skips run).1
      obtain ⟨items', u, runs, ends, faults'⟩ :=
        ih inBlock (by omega) (by omega) (skipsNested_more skips run).2
      refine ⟨items ++ items', u, (bind_of_ok run).trans (bind_of_ok runs), ends, ?_⟩
      rw [same]
      exact faults.trans faults'

end Turns

/-! ### Blocks and scripts -/

section Scripts

variable {depth : Nat} {name : Bytes} {l behind : List Token} {opening closing : Token}
  {s : ReaderState}

/-- Where each faulty statement of a block is skipped with its brackets, the block is read up to its
brace. -/
lemma block_of_inBlock (opens : s.current.kind = .lbrace) (h : InBlock closing behind l (step s))
    (closes : closing.kind = .rbrace) (more : behind ≠ [])
    (deep : (step s).ahead.length < depth)
    (skips : skipsNested (read depth .statement) [.rbrace] ((step s).ahead.length + 1) (step s)) :
    ∃ n t, block (read depth) s = .ok n t ∧ t.tokens = behind ∧ t.allowsIn = true ∧
      FaultsAmong l s t := by
  obtain ⟨items, t, runs, ends, faults⟩ := h.toClosing closes more deep (Nat.lt_succ_self _) skips
  have here : t.current = closing := (List.cons.inj ends.tokens).1
  have notEnd : t.current.kind ≠ .eof := by
    rw [here, closes]
    decide
  have taken : expect .rbrace .blockEnd t = .ok t.current (step t) :=
    expect_of_kind (here ▸ closes)
  obtain ⟨n, whole⟩ : ∃ n, block (read depth) s = .ok n (step t) := by
    refine ⟨{ Node.of .block s.current.span items with
      span := s.current.span.merge (step t).previous.span }, ?_⟩
    refine (bind_of_ok rfl).trans ((bind_of_ok (expect_of_kind opens)).trans ?_)
    exact (bind_of_ok runs).trans (bind_of_ok taken)
  refine ⟨n, step t, whole, ?_, (allowsIn_step t).trans ends.allowsIn, fun f hf => ?_⟩
  · rw [tokens_step ends.once notEnd]
    exact (List.cons.inj ends.tokens).2
  · rw [faults_step] at hf
    rw [← faults_step s]
    exact faults f hf

/-- What is a script by itself is read as such behind other statements, too. -/
lemma repeatedAtMost_behind {n : Node} (accepted : script name s.tokens = .ok n)
    (allows : s.allowsIn = true) {depth bound : Nat} (deep : s.ahead.length + 2 ≤ depth)
    (long : s.ahead.length < bound) :
    ∃ items t, repeatedAtMost (statementTurn (read depth .statement) []) bound s = .ok items t ∧
      t.faults = s.faults := by
  obtain ⟨first, rest, items, u, tokens, runs, none, -⟩ := script_eq_ok accepted
  have ahead : rest = s.ahead := (List.cons.inj tokens).2.symm
  rw [ahead] at runs tokens
  obtain ⟨t, again, clean⟩ := repeatedAtMost_of_script (s := start first s.ahead)
    (u := s.forgetting) deep long runs none tokens allows rfl
  refine ⟨items, _, Regular.remembering again, ?_⟩
  change s.faults ++ t.faults = s.faults
  rw [clean, List.append_nil]

/-- The statements of a script that starts with a block: only those in the block have faults. -/
lemma statements_of_inBlock {n : Node} (once : EndsOnce s.tokens) (opens : s.current.kind = .lbrace)
    (closes : closing.kind = .rbrace) (h : InBlock closing behind l (step s))
    (accepted : script name behind = .ok n) (deep : s.ahead.length ≤ depth)
    (skips : skipsNested (read (depth + 1) .statement) [.rbrace] s.ahead.length (step s)) :
    ∃ items t, statements (read (depth + 2) .statement) [] s = .ok items t ∧
      FaultsAmong l s t := by
  have inside : s.current.kind ≠ .eof := by
    rw [opens]
    decide
  have more : behind ≠ [] := by
    rintro rfl
    cases accepted
  have taken : (step s).ahead.length + 1 = s.ahead.length :=
    congrArg List.length (tokens_step once inside)
  obtain ⟨m, t, read, left, allows, recorded⟩ :=
    block_of_inBlock opens h closes more (by omega) (taken ▸ skips)
  have shorter : t.ahead.length < s.ahead.length := by
    have size := congrArg List.length h.tokens
    have size' := congrArg List.length left
    simp only [ReaderState.tokens, List.length_append, List.length_cons] at size size'
    omega
  have whole : Grammar.read (depth + 2) .statement s = .ok m t := by
    refine (bind_of_ok rfl).trans ?_
    rw [opens]
    exact read
  have recovered : recovering (Grammar.read (depth + 2) .statement) s = .ok [m] t := by
    unfold recovering
    rw [whole]
  have turn := statementTurn_of_recovering inside recovered
  have deeper : t.ahead.length + 2 ≤ depth + 2 := by omega
  obtain ⟨items, u, runs, clean⟩ := repeatedAtMost_behind (left ▸ accepted) allows deeper shorter
  refine ⟨[m] ++ items, u, (bind_of_ok turn).trans (bind_of_ok runs), fun f hf => ?_⟩
  rw [clean] at hf
  exact recorded f hf

/-- The errors of a script are the faults that its statements record. -/
lemma faults_of_script {first : Token} {rest : List Token} {items : List Node} {t : ReaderState}
    {faults : List SyntaxFault}
    (run : statements (read (rest.length + 2) .statement) [] (start first rest) = .ok items t)
    (failed : script name (first :: rest) = .error faults) : faults = t.faults := by
  rw [script, scriptReader_of_statements run] at failed
  change (if t.faults.isEmpty then _ else _) = _ at failed
  split at failed
  · cases failed
  · cases failed
    rfl

/-- **Faults in a block start in it, if brackets are skipped with it.** Between the braces of a
block all brackets are closed, and what follows the block is a script by itself. If what is taken
for each statement of the block with a fault closes the brackets that it opens and no others, all
faults of the whole start at tokens between the braces. -/
theorem script_faults_inBlock {n : Node} {faults : List SyntaxFault}
    (once : EndsOnce (opening :: (l ++ closing :: behind))) (opens : opening.kind = .lbrace)
    (closes : closing.kind = .rbrace) (nested : depthAfter 0 l = some 0)
    (accepted : script name behind = .ok n)
    (skips : skipsNested (read ((l ++ closing :: behind).length + 1) .statement) [.rbrace]
      (l ++ closing :: behind).length (step (start opening (l ++ closing :: behind))))
    (failed : script name (opening :: (l ++ closing :: behind)) = .error faults) :
    ∀ f ∈ faults, ∃ t ∈ l, f.span.start = t.span.start := by
  have inside : opening.kind ≠ .eof := by
    rw [opens]
    decide
  have tokens : (step (start opening (l ++ closing :: behind))).tokens = l ++ closing :: behind :=
    tokens_step once inside
  have inBlock : InBlock closing behind l (step (start opening (l ++ closing :: behind))) :=
    ⟨tokens, nested, allowsIn_step _, tokens.symm ▸ once.tail inside⟩
  have ends : EndsOnce (start opening (l ++ closing :: behind)).tokens := once
  obtain ⟨items, t, runs, recorded⟩ :=
    statements_of_inBlock ends opens closes inBlock accepted (Nat.le_refl _) skips
  rw [faults_of_script runs failed]
  exact fun f hf => (recorded f hf).resolve_left List.not_mem_nil

/-- The errors in tokens that form no script. -/
def scriptFaults? (name : Bytes) (tokens : List Token) : Option (List SyntaxFault) :=
  match script name tokens with
  | .error faults => some faults
  | .ok _ => none

lemma script_eq_error {tokens : List Token} {faults : List SyntaxFault}
    (h : scriptFaults? name tokens = some faults) : script name tokens = .error faults := by
  unfold scriptFaults? at h
  split at h
  case h_1 failed => rw [failed, Option.some.inj h]
  case h_2 => cases h

/-- A token of one byte. -/
def tokenAt (kind : TokenKind) (offset : UInt32) : Token :=
  ⟨kind, ⟨[], ⟨1, offset + 1, offset⟩, ⟨1, offset + 2, offset + 1⟩⟩, [], [], false⟩

/-- In `{ ++1; a; } b;` the skip ends behind the first semicolon. -/
theorem script_faults_inBlock_semicolon :
    let opening := tokenAt .lbrace 0
    let l := [tokenAt .plusPlus 2, tokenAt .number 4, tokenAt .semi 5, tokenAt .identifier 7,
      tokenAt .semi 8]
    let closing := tokenAt .rbrace 10
    let behind := [tokenAt .identifier 12, tokenAt .semi 13, tokenAt .eof 14]
    ∃ faults, script [] (opening :: (l ++ closing :: behind)) = .error faults ∧
      faults.length = 1 ∧ ∀ f ∈ faults, ∃ t ∈ l, f.span.start = t.span.start := by
  intro opening l closing behind
  have once : EndsOnce (opening :: (l ++ closing :: behind)) := by
    simp [EndsOnce, opening, l, closing, behind, tokenAt]
  have skips : skipsNested (read ((l ++ closing :: behind).length + 1) .statement) [.rbrace]
      (l ++ closing :: behind).length (step (start opening (l ++ closing :: behind))) := by
    decide +kernel
  have failed : script [] (opening :: (l ++ closing :: behind)) =
      .error [⟨.updateOperand, (tokenAt .number 4).span⟩] := script_eq_error (by decide +kernel)
  refine ⟨_, failed, rfl, ?_⟩
  exact script_faults_inBlock once rfl rfl rfl rfl skips failed

/-- In `{ ++1 } a;` the fault is at the number, and the brace behind it is skipped: the block has no
end. -/
theorem script_faults_outside :
    let opening := tokenAt .lbrace 0
    let l := [tokenAt .plusPlus 2, tokenAt .number 4]
    let closing := tokenAt .rbrace 6
    let behind := [tokenAt .identifier 8, tokenAt .semi 9, tokenAt .eof 10]
    EndsOnce (opening :: (l ++ closing :: behind)) ∧ depthAfter 0 l = some 0 ∧
      (∃ n, script [] behind = .ok n) ∧
      ∃ faults, script [] (opening :: (l ++ closing :: behind)) = .error faults ∧
        ∃ f ∈ faults, closing.span.stop.offset < f.span.start.offset := by
  intro opening l closing behind
  have once : EndsOnce (opening :: (l ++ closing :: behind)) := by
    simp [EndsOnce, opening, l, closing, behind, tokenAt]
  have failed : script [] (opening :: (l ++ closing :: behind)) =
      .error [⟨.updateOperand, (tokenAt .number 4).span⟩,
        ⟨.expected .blockEnd .eof, (tokenAt .eof 10).span⟩] :=
    script_eq_error (by decide +kernel)
  refine ⟨once, rfl, ⟨_, rfl⟩, _, failed, ?_⟩
  exact ⟨_, List.mem_cons_of_mem _ List.mem_cons_self, by decide⟩

end Scripts

end Grammar

end ModuleLint

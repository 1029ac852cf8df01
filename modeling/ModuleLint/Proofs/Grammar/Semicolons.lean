import ModuleLint.Proofs.Grammar.ScriptRespan
import ModuleLint.Proofs.Grammar.StatementSurvival

/-!
Semicolons that are left out.

A semicolon may be missing at the end of a statement or a field. Whether it is written there or not,
the same script is read, apart from its spans.
-/

namespace ModuleLint

open Grammar Reader

namespace Grammar

/-- Where semicolons are left out in tokens that form a script, in order: each time, how many tokens
stand behind the one before which the semicolon is missing. -/
def omissions (name : Bytes) : List Token → List Nat
  | [] => []
  | first :: rest =>
    match scriptReader (rest.length + 2) name (start first rest) with
    | .ok _ s => s.omitted
    | _ => []

/-- The tokens with others inserted, each before the token with its number of tokens behind it. -/
def insertTokens (extra : List (Nat × Token)) : List Token → List Token
  | [] => []
  | t :: rest =>
    (extra.filter (·.1 = rest.length)).map (·.2) ++ t :: insertTokens extra rest

end Grammar

/-- Nothing but semicolons is written, and spans are forgotten. -/
def Edit.writing : Edit := respanning .forget

namespace Edit

/-- A token of the kind that is inserted, as a written semicolon. -/
def Semicolon.ofToken (t : Token) (place : Nat) (kind : t.kind = .semi) : Semicolon .writing :=
  ⟨t.respan .forget, place, kind, fun _ => rfl, rfl⟩

section Writing

variable {extra : List (Nat × Token)} (semi : ∀ e ∈ extra, e.2.kind = .semi)

/-- Inserted tokens as written semicolons. -/
def semicolons : List (Semicolon .writing) :=
  extra.pmap (fun e kind => .ofToken e.2 e.1 kind) semi

lemma places_semicolons : (semicolons semi).map (·.place) = extra.map (·.1) := by
  unfold semicolons
  rw [List.map_pmap]
  exact List.pmap_eq_map semi

lemma written_semicolons (n : Nat) : Edit.writing.written (semicolons semi) n =
    ((extra.filter (·.1 = n)).map (·.2)).map (·.respan .forget) := by
  induction extra with
  | nil => rfl
  | cons e extra ih =>
    have tail := ih fun d hd => semi d (List.mem_cons_of_mem e hd)
    by_cases here : e.1 = n
    · rw [List.filter_cons_of_pos (by exact decide_eq_true here), List.map_cons, List.map_cons,
        ← tail]
      unfold written semicolons
      rw [List.pmap_cons, List.filter_cons_of_pos (by exact decide_eq_true here), List.map_cons]
      rfl
    · have elsewhere : ¬ decide (e.1 = n) = true := fun yes => here (of_decide_eq_true yes)
      rw [List.filter_cons_of_neg (by exact elsewhere), ← tail]
      unfold written semicolons
      rw [List.pmap_cons, List.filter_cons_of_neg (by exact elsewhere)]

/-- Written semicolons and inserted ones are the same without spans. -/
lemma apply_semicolons (l : List Token) : Edit.writing.apply (semicolons semi) l =
    (insertTokens extra l).map (·.respan .forget) := by
  induction l with
  | nil => rfl
  | cons t rest ih =>
    rw [apply_cons fun _ => rfl, written_semicolons, ih, insertTokens, List.map_append,
      List.map_cons]
    rfl

/-- No edited token has a span. -/
lemma span_of_mem_writing {c : List (Semicolon .writing)} {l : List Token} {t : Token}
    (h : t ∈ Edit.writing.apply c l) : t.span = .none := by
  induction l with
  | nil => cases h
  | cons u rest ih =>
    rw [apply_cons fun _ => rfl, List.mem_append, List.mem_cons] at h
    obtain written | rfl | behind := h
    · exact (written_span written .none).symm
    · rfl
    · exact ih behind

end Writing

end Edit

namespace Grammar

variable {name : Bytes} {tokens : List Token} {m : Node} {extra : List (Nat × Token)}

lemma omissions_of_statements {first : Token} {rest : List Token} {items : List Node}
    {t : ReaderState} (run : statements (read (rest.length + 2) .statement) [] (start first rest) =
      .ok items t) : omissions name (first :: rest) = t.omitted := by
  rw [omissions, scriptReader_of_statements run]

/-- Without spans, the script is read where its missing semicolons are written. -/
lemma script_written (accepted : script name tokens = .ok m) {c : List (Edit.Semicolon .writing)}
    (places : (c.map (·.place)).Sublist (omissions name tokens)) :
    script name (Edit.writing.apply c tokens) = .ok (m.respan .forget) := by
  obtain ⟨first, rest, body, t, rfl, run, faults, rfl⟩ := script_eq_ok accepted
  rw [omissions_of_statements run] at places
  obtain ⟨first', rest', edited⟩ := List.exists_cons_of_ne_nil
    (Edit.apply_ne_nil (c := c) (List.cons_ne_nil first rest))
  have deeper : rest.length + 2 ≤ rest'.length + 2 := by
    have longer := Edit.length_le_apply c (first :: rest)
    rw [edited, List.length_cons, List.length_cons] at longer
    omega
  have survives := statements_survives (k := .fresh) (n := 0) (.inr rfl)
    (read_survives Edit.writing deeper .statement 0) []
  obtain ⟨-, runs⟩ := survives _ body t trivial run faults
  have atEnd := atEnd_of_statements run
  have margin : Edit.writing.Margin .fresh [] t := Edit.margin_respanning atEnd
  have begins : Edit.writing.Related .fresh (c ++ []) (start first rest) (start first' rest') := by
    rw [List.append_nil]
    exact ⟨edited.symm, rfl, rfl, fun known => absurd rfl known⟩
  have ran := runs ⟨t.current, List.mem_cons_self, atEnd⟩ (Edit.known_respanning nofun)
  obtain ⟨t', run', related⟩ := ran.edited ⟨t.omitted, rfl, places⟩ margin begins
  have noSpan : first'.span = .none :=
    Edit.span_of_mem_writing (edited ▸ List.mem_cons_self)
  rw [edited, script_of_statements run' related.faults, (related.head margin rfl).1, noSpan,
    Node.respan_mk]
  rfl

/-- **A missing semicolon may as well be written.** Where tokens form a script, semicolons may be
inserted at any of the places at which one is missing: the tokens form a script again, and apart
from spans it is the same. -/
theorem script_insertTokens (accepted : script name tokens = .ok m)
    (semi : ∀ e ∈ extra, e.2.kind = .semi)
    (places : (extra.map (·.1)).Sublist (omissions name tokens)) :
    ∃ m', script name (insertTokens extra tokens) = .ok m' ∧
      m'.respan .forget = m.respan .forget := by
  have written := script_written accepted (Edit.places_semicolons semi ▸ places)
  rw [Edit.apply_semicolons, script_respan] at written
  cases h : script name (insertTokens extra tokens) with
  | error faults =>
    rw [h] at written
    cases written
  | ok m' =>
    rw [h] at written
    exact ⟨m', rfl, Except.ok.inj written⟩

/-- Two names on two lines: a semicolon is missing after each. -/
theorem script_insertTokens_lines :
    let token (kind : TokenKind) (newlineBefore : Bool) : Token :=
      ⟨kind, .none, [], [], newlineBefore⟩
    let tokens := [token .identifier false, token .identifier true, token .eof false]
    ∃ m m', script [] tokens = .ok m ∧ omissions [] tokens = [1, 0] ∧
      script [] (insertTokens [(1, token .semi false), (0, token .semi true)] tokens) = .ok m' ∧
      m'.respan .forget = m.respan .forget := by
  intro token tokens
  have omitted : omissions [] tokens = [1, 0] := by decide +kernel
  obtain ⟨m', read, same⟩ := @script_insertTokens [] tokens _
    [(1, token .semi false), (0, token .semi true)] rfl (by simp [token])
    (by rw [omitted]; exact List.Sublist.refl _)
  exact ⟨_, m', rfl, omitted, read, same⟩

end Grammar

end ModuleLint

import Easel.Proofs.Diagnostic.Located
import Easel.Proofs.Token.Readable

/-! What stands where a report wants something else. A report names what was wanted in place of a
token, and that is never what the token is: a number that was scanned is read wherever a number is
wanted, and an operator is one of the four that can be applied. -/

namespace Easel

open Text Description

theorem Token.readable_of_source {file source : String} {tokens : List Token}
    (h : ofSource? file source = .ok tokens) : ∀ t ∈ tokens, t.Readable :=
  fun t ht => (arises_of_scan (Except.mapError_eq_ok_iff.mp h) t ht).readable

namespace Description

variable {c : Context} {us : List Token} {e : Rejection} {wanted found : String}

/-- Readable tokens are not rejected where they are wanted. -/
theorem Rejects.description_ne [Keyword.Order] (h : Rejects c us e)
    (hreadable : ∀ t ∈ us, t.Readable) (hcause : e.cause = .expected wanted found) :
    e.position = c.stop ∨ ∃ t ∈ us, e.position = t.position ∧ t.kind.description ≠ wanted := by
  cases h with
  | unfinished => exact .inl rfl
  | unexpected hts hkind =>
    cases hcause
    exact .inr ⟨_, mem_of_cons hts, rfl, hkind⟩
  | unreadableNumber ht hkind hnone =>
    obtain ⟨-, hread⟩ := (hreadable _ ht).number hkind
    rw [hnone] at hread
    cases hread
  | unknownOperator ht hkind htext => exact absurd ((hreadable _ ht).operator hkind) htext
  | _ => cases hcause

end Description

namespace Scene

variable {file source : String} {tokens : List Token} {t : Token}

/-- No report wants a token of some kind in place of one. -/
theorem parse?_ne_expected [Keyword.Order] (h : Token.ofSource? file source = .ok tokens)
    (ht : t ∈ tokens)
    {kind : TokenKind} (hmore : kind ≠ .endOfFile) (hkind : t.kind = kind) (found : String)
    (help : Option String) : parse? file source ≠
      .error (.rejected file t.position (.expected kind.description found) help) := by
  intro hparse
  have hreadable := Token.readable_of_source h
  obtain ⟨words, rfl, hlayout⟩ := Token.ofSource?_layout h
  have hkinds := hlayout.partition.kind
  have hword : t ∈ words := by
    rcases List.mem_append.mp ht with hword | hend
    · exact hword
    · rw [List.mem_singleton.mp hend] at hkind
      exact absurd hkind.symm hmore
  rw [parse?, h] at hparse
  obtain ⟨r, hreport, hrejects⟩ := build?_rejects hparse
  injection hreport with _ hposition hcause
  rw [content_eq_of_mark hkinds rfl, stop_eq_of_mark hkinds rfl] at hrejects
  rcases hrejects.description_ne (fun u hu => hreadable u (List.mem_append_left _ hu))
    hcause.symm with hend | ⟨u, hu, hsame, hne⟩
  · -- The mark for the end has no length, so it is not the place of a token.
    have hpos := hlayout.length_pos hword
    rw [hposition, hend] at hpos
    exact absurd hpos (Nat.lt_irrefl 0)
  · rw [← hlayout.position_inj hword hu (hposition.trans hsame), hkind] at hne
    exact hne rfl

/-- The numbers of a source can be read, and its operators applied: no report wants a number in
place of a number or an operator in place of an operator. -/
theorem no_literal_refused [Keyword.Order] (h : Token.ofSource? file source = .ok tokens) :
    (∀ t ∈ tokens, t.Readable) ∧
      ∀ t ∈ tokens, ∀ found help,
        (t.kind = .number → parse? file source ≠
          .error (.rejected file t.position (.expected "a number" found) help)) ∧
        (t.kind = .operator → parse? file source ≠
          .error (.rejected file t.position (.expected "an operator" found) help)) := by
  refine ⟨Token.readable_of_source h, fun t ht found help => ⟨?_, ?_⟩⟩
  · intro hkind
    exact parse?_ne_expected h ht (by decide) hkind found help
  · intro hkind
    exact parse?_ne_expected h ht (by decide) hkind found help

/-- A source with a bracket in place of a number. -/
def missingFactor : String := "size 2. +2 circ c (* (- \x7b-.5 1\x7d) )"

theorem missingFactor_literals :
    ∃ tokens, Token.ofSource? "é.paint" missingFactor = .ok tokens ∧
      parse? "é.paint" missingFactor =
        .error (.rejected "é.paint" ⟨1, 34, 33, 1⟩ (.expected "a number" ")") none) ∧
      (∀ t ∈ tokens, t.Readable) ∧
      ∀ t ∈ tokens, ∀ found help,
        (t.kind = .number → parse? "é.paint" missingFactor ≠
          .error (.rejected "é.paint" t.position (.expected "a number" found) help)) ∧
        (t.kind = .operator → parse? "é.paint" missingFactor ≠
          .error (.rejected "é.paint" t.position (.expected "an operator" found) help)) := by
  have hscan : Token.ofSource? "é.paint" missingFactor = .ok
      [⟨.name, "size", ⟨1, 1, 0, 4⟩⟩, ⟨.number, "2.", ⟨1, 6, 5, 2⟩⟩, ⟨.number, "+2", ⟨1, 9, 8, 2⟩⟩,
        ⟨.name, "circ", ⟨1, 12, 11, 4⟩⟩, ⟨.name, "c", ⟨1, 17, 16, 1⟩⟩,
        ⟨.openParen, "(", ⟨1, 19, 18, 1⟩⟩, ⟨.operator, "*", ⟨1, 20, 19, 1⟩⟩,
        ⟨.openParen, "(", ⟨1, 22, 21, 1⟩⟩, ⟨.operator, "-", ⟨1, 23, 22, 1⟩⟩,
        ⟨.openBrace, "\x7b", ⟨1, 25, 24, 1⟩⟩, ⟨.number, "-.5", ⟨1, 26, 25, 3⟩⟩,
        ⟨.number, "1", ⟨1, 30, 29, 1⟩⟩, ⟨.closeBrace, "\x7d", ⟨1, 31, 30, 1⟩⟩,
        ⟨.closeParen, ")", ⟨1, 32, 31, 1⟩⟩, ⟨.closeParen, ")", ⟨1, 34, 33, 1⟩⟩,
        ⟨.endOfFile, "", ⟨2, 0, 34, 0⟩⟩] := by
    decide +kernel
  exact ⟨_, hscan, by decide +kernel, no_literal_refused hscan⟩

end Scene

end Easel

import Easel.Proofs.Description.Landmarks
import Easel.Proofs.Description.Naming
import Easel.Proofs.Text.OneLine
import Easel.Proofs.Text.Similarity

/-! Reports on a source are written on one line. What they quote are words of the source, in which
there are no blanks, names that were declared with such words, numbers, and phrases of their own. -/

namespace Easel

open Text Description

/-! ### Wording -/

theorem TokenKind.oneLine_description (kind : TokenKind) : OneLine kind.description := by
  cases kind <;> decide

theorem Quantity.oneLine_text (quantity : Quantity) : OneLine quantity.text := by
  cases quantity <;> decide

theorem Requirement.oneLine_text (requirement : Requirement) : OneLine requirement.text := by
  cases requirement <;> decide

theorem Malformed.oneLine_message {cause : Malformed} (h : OneLine cause.text) :
    OneLine cause.message := by
  cases cause with
  | misplacedOperator | invalidElement => exact (OneLine.append (by decide) h).append (by decide)

namespace Violation

/-- What a message has of others: the words it quotes and what is wanted in their place. -/
def quotes : Violation → List String
  | expected wanted found => [wanted, found]
  | missingSize text | invalidKeyword text | unknownKeyword text | invalidCoordinate text
  | duplicateShape text _ | duplicateColor text _ | undefinedShape text | undefinedColor text =>
    [text]
  | unknownLandmark shape point => [shape, point]
  | outOfRange .. | divisionByZero => []

theorem oneLine_message {v : Violation} (h : ∀ text ∈ v.quotes, OneLine text) :
    OneLine v.message := by
  cases v with
  | expected wanted found =>
    have hwanted := h wanted (.head _)
    have hfound := h found (.tail _ (.head _))
    exact (((OneLine.append (by decide) hwanted).append (by decide)).append hfound).append
      (by decide)
  | missingSize text | invalidKeyword text | unknownKeyword text | undefinedShape text
  | undefinedColor text | invalidCoordinate text =>
    exact (OneLine.append (by decide) (h text (.head _))).append (by decide)
  | duplicateShape name first | duplicateColor name first =>
    have hname := h name (.head _)
    exact (((OneLine.append (by decide) hname).append (by decide)).append
      first.oneLine_text).append (by decide)
  | unknownLandmark shape point =>
    have hshape := h shape (.head _)
    have hpoint := h point (.tail _ (.head _))
    exact (((OneLine.append (by decide) hpoint).append (by decide)).append hshape).append
      (by decide)
  | outOfRange quantity requirement value =>
    exact ((((quantity.oneLine_text.append (by decide)).append requirement.oneLine_text).append
      (by decide)).append (Binary64.oneLine_text value)).append (by decide)
  | divisionByZero => decide

end Violation

/-! ### What is quoted -/

namespace Description

variable {c : Context} {us ts : List Token} {e : Rejection}

theorem oneLine_of_isWanted {wanted : String} (h : IsWanted wanted) : OneLine wanted := by
  rcases h with ⟨kind, rfl⟩ | h
  · exact kind.oneLine_description
  · revert wanted
    decide +kernel

theorem oneLine_quoted {t : Token} (h : OneLine t.text) : OneLine t.quoted := by
  rw [Token.quoted]
  split
  · decide
  · exact h

theorem oneLine_quoted_of_suffix (hus : ∀ t ∈ us, OneLine t.text) (hts : ts <:+ us) :
    OneLine (Context.quoted ts) := by
  cases ts with
  | nil => decide
  | cons t rest => exact oneLine_quoted (hus t (mem_of_cons hts))

/-- The advice to write one of some names. -/
theorem oneLine_suggestion {name advice : String} {candidates : List String}
    (hcandidates : ∀ candidate ∈ candidates, OneLine candidate)
    (h : (Similarity.closest? name candidates).map suggestion = some advice) : OneLine advice := by
  obtain ⟨candidate, hclosest, rfl⟩ := Option.map_eq_some_iff.mp h
  have hmem := (Similarity.isLikeliest_of_closest? hclosest).mem
  exact (OneLine.append (by decide) (hcandidates candidate hmem)).append (by decide)

theorem oneLine_landmarkAdvice {s : Scene} {id : Nat} (hname : OneLine (s.drawing.nameOf id)) :
    OneLine (landmarkAdvice s id) := by
  have hlists : ∀ names ∈ Landmark.lists, OneLine (", ".intercalate names) := by
    decide +kernel
  have havailable := hlists _ (s.drawing.landmarkNames_mem_lists id)
  exact ((OneLine.append (by decide) hname).append (by decide)).append havailable

/-- Tokens and names of one line are rejected with quotations and advice of one line. -/
theorem Rejects.oneLine [Keyword.Order] (h : Rejects c us e)
    (hus : ∀ t ∈ us, OneLine t.text) (hnames : c.scene.AllNamed OneLine) (hs : c.scene.Sound) :
    (∀ text ∈ e.cause.quotes, OneLine text) ∧
      ∀ advice, e.help = some advice → OneLine advice := by
  have hone {text : String} (htext : OneLine text) : ∀ quote ∈ [text], OneLine quote :=
    List.forall_mem_singleton.mpr htext
  have hboth {text other : String} (htext : OneLine text) (hother : OneLine other) :
      ∀ quote ∈ [text, other], OneLine quote :=
    List.forall_mem_cons.mpr ⟨htext, hone hother⟩
  cases h with
  | unfinished hwanted => exact ⟨hboth (oneLine_of_isWanted hwanted) (by decide), nofun⟩
  | unexpected hts _ hwanted =>
    exact ⟨hboth (oneLine_of_isWanted hwanted) (oneLine_quoted_of_suffix hus hts), nofun⟩
  | unreadableNumber ht | unknownOperator ht =>
    exact ⟨hboth (TokenKind.oneLine_description _) (hus _ ht), nofun⟩
  | missingSize hts => exact ⟨hone (oneLine_quoted_of_suffix hus hts), nofun⟩
  | invalidKeyword ht => exact ⟨hone (oneLine_quoted (hus _ ht)), nofun⟩
  | duplicateShape ht | duplicateColor ht | invalidCoordinate ht =>
    exact ⟨hone (hus _ ht), nofun⟩
  | unknownKeyword ht =>
    have hkeywords : ∀ text ∈ Keyword.Order.keywords.map Keyword.text, OneLine text := by
      intro _ hmem
      obtain ⟨keyword, -, rfl⟩ := List.mem_map.mp hmem
      cases keyword <;> decide +kernel
    exact ⟨hone (hus _ ht), fun _ => oneLine_suggestion hkeywords⟩
  | undefinedShape ht => exact ⟨hone (hus _ ht), fun _ => oneLine_suggestion hnames.shapes⟩
  | undefinedColor ht => exact ⟨hone (hus _ ht), fun _ => oneLine_suggestion hnames.colors⟩
  | @unknownLandmark shape _ mark _ id hts _ _ _ hid =>
    have hname : OneLine (c.scene.drawing.nameOf id) := by
      rw [hs.nameOf_shape? hid]
      exact hus shape (hts.subset (by simp))
    refine ⟨hboth hname (hus mark (hts.subset (by simp))), ?_⟩
    rintro _ ⟨⟩
    exact oneLine_landmarkAdvice hname
  | outOfRange | divisionByZero => exact ⟨nofun, nofun⟩

end Description

/-! ### Reports -/

/-- What a report on a source says of the place that it names. -/
def Diagnostic.reason? : Diagnostic → Option String
  | malformed _ _ cause => some cause.message
  | rejected _ _ cause _ => some cause.message
  | _ => none

/-- A report that names a place in a file and says on one line what is wrong there. -/
structure Diagnostic.Brief (file : String) (d : Diagnostic) : Prop where
  message : ∃ p reason, d.position? = some p ∧ d.reason? = some reason ∧
    d.message = s!"{file}:{p.line}:{p.column}: error: {reason}" ∧ OneLine reason
  help : ∀ advice, d.help? = some advice → OneLine advice

variable {file source : String} {d : Diagnostic}

theorem Diagnostic.located_eq (file : String) (p : Position) (reason : String) :
    located file p reason = s!"{file}:{p.line}:{p.column}: error: {reason}" := by
  change file ++ ":" ++ (toString p.line ++ ":" ++ toString p.column) ++ ": error: " ++ reason =
    file ++ ":" ++ toString p.line ++ ":" ++ toString p.column ++ ": error: " ++ reason
  simp only [String.append_assoc]

theorem Diagnostic.newline_notMem_located {p : Position} {reason : String}
    (hfile : '\n' ∉ file.toList) (hreason : OneLine reason) :
    '\n' ∉ (located file p reason).toList := by
  have hrest : OneLine (":" ++ p.text ++ ": error: " ++ reason) :=
    ((OneLine.append (by decide) p.oneLine_text).append (by decide)).append hreason
  have hsplit : located file p reason = file ++ (":" ++ p.text ++ ": error: " ++ reason) := by
    change file ++ ":" ++ p.text ++ ": error: " ++ reason = _
    simp only [String.append_assoc]
  rw [hsplit, String.toList_append, List.mem_append, not_or]
  exact ⟨hfile, hrest.newline_notMem⟩

theorem Token.ofSource?_error_brief (h : Token.ofSource? file source = .error d) :
    d.Brief file := by
  obtain ⟨f, hf, rfl⟩ := Except.mapError_eq_error_iff.mp h
  obtain ⟨before, after, -, helement, -⟩ := Token.scan_error hf
  have hmessage := f.cause.oneLine_message helement.word.plain.oneLine
  exact ⟨⟨f.position, _, rfl, rfl, Diagnostic.located_eq .., hmessage⟩, nofun⟩

theorem Scene.build?_error_brief [Keyword.Order] {tokens : List Token}
    (htokens : ∀ t ∈ content tokens, OneLine t.text) (h : Scene.build? file tokens = .error d) :
    d.Brief file := by
  obtain ⟨r, rfl, hrejects⟩ := build?_rejects h
  obtain ⟨hquotes, hhelp⟩ :=
    hrejects.oneLine htokens (read_allNamed htokens) (read_reachable tokens).sound
  have hmessage := r.cause.oneLine_message hquotes
  exact ⟨⟨r.position, _, rfl, rfl, Diagnostic.located_eq .., hmessage⟩, hhelp⟩

theorem Scene.parse?_error_brief [Keyword.Order] (h : Scene.parse? file source = .error d) :
    d.Brief file := by
  rcases Except.bind_eq_error_iff.mp h with hscan | ⟨tokens, hscan, hbuild⟩
  · exact Token.ofSource?_error_brief hscan
  · obtain ⟨words, rfl, hlayout⟩ := Token.ofSource?_layout hscan
    refine Scene.build?_error_brief (fun t ht => ?_) hbuild
    rw [content_eq_of_mark hlayout.partition.kind rfl] at ht
    obtain ⟨before, after, -, hbehind⟩ := hlayout.behind ht
    exact hbehind.plain.oneLine

/-- A report on a source is one line of text, whatever the source is, and so is its advice. -/
theorem Scene.parse?_error_oneLine [Keyword.Order] (hfile : '\n' ∉ file.toList)
    (h : Scene.parse? file source = .error d) :
    (∃ p reason, d.position? = some p ∧ d.reason? = some reason ∧
      d.message = s!"{file}:{p.line}:{p.column}: error: {reason}") ∧
    '\n' ∉ d.message.toList ∧ ∀ advice, d.help? = some advice → '\n' ∉ advice.toList := by
  have hbrief := parse?_error_brief h
  obtain ⟨p, reason, hposition, hcause, hmessage, hreason⟩ := hbrief.message
  refine ⟨⟨p, reason, hposition, hcause, hmessage⟩, ?_, ?_⟩
  · rw [hmessage, ← Diagnostic.located_eq]
    exact Diagnostic.newline_notMem_located hfile hreason
  · exact fun advice hadvice => (hbrief.help advice hadvice).newline_notMem

/-- A source of three lines, the last of which misspells the name of a shape. -/
def Scene.misspelt : String := "size 1 1\ncirc disc \x7b0 0\x7d 1\nfill disk \x7b1 0 0\x7d"

/-- The report on this source. -/
def Diagnostic.misspelt : Diagnostic :=
  .rejected "discs.paint" ⟨3, 6, 32, 4⟩ (.undefinedShape "disk") (some "did you mean 'disc'?")

theorem Scene.misspelt_oneLine :
    '\n' ∉ "discs.paint".toList ∧
    Scene.parse? "discs.paint" Scene.misspelt = .error Diagnostic.misspelt ∧
    Diagnostic.misspelt.message = "discs.paint:3:6: error: shape 'disk' doesn't exist." ∧
    '\n' ∉ Diagnostic.misspelt.message.toList ∧ '\n' ∉ "did you mean 'disc'?".toList := by
  have hfile : '\n' ∉ "discs.paint".toList := by decide
  have hparse : Scene.parse? "discs.paint" Scene.misspelt = .error Diagnostic.misspelt := by
    decide +kernel
  obtain ⟨-, hmessage, hhelp⟩ := parse?_error_oneLine hfile hparse
  exact ⟨hfile, hparse, by decide +kernel, hmessage, hhelp _ rfl⟩

end Easel

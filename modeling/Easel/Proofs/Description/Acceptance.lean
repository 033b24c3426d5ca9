import Easel.Proofs.Description.Denotation
import Easel.Proofs.Description.Representation

/-! Which lists of tokens are accepted, and as which scene: those that the grammar derives, as the
scene that their statements denote. Its limits on measures are kept but for NaN, so a list of
tokens is accepted and not derived just when a shape of its scene has a NaN for a measure. -/

namespace Easel

variable {width height : Nat} {s : Scene}

namespace Description

/-! ### Reading -/

theorem carryOut_result_iff [Keyword.Order] (stop : Position) (ts : List Token)
    {before : List Statement}
    (h : (Scene.ofStatements width height before).Reachable) :
    (carryOut stop (.ofStatements width height before) ts).result = .ok s ↔
      ∃ sts, AreStatements .kept width height before ts sts ∧
        s = .ofStatements width height (before ++ sts) := by
  induction hlength : ts.length using Nat.strongRecOn generalizing ts before with
  | ind length ih =>
  subst hlength
  cases ts with
  | nil =>
    rw [carryOut, Progress.result]
    constructor
    · intro hs
      cases hs
      exact ⟨[], .none, by rw [List.append_nil]⟩
    · rintro ⟨sts, hsts, rfl⟩
      cases hsts with
      | none => rw [List.append_nil]
      | more hst _ => cases hst
  | cons t us =>
    rw [carryOut]
    constructor
    · intro hs
      split at hs
      · cases hs
      · next st rest hlt hread =>
        have hst : IsStatement .kept (.ofStatements width height before) (t :: us) st rest :=
          statement_eq_ok_iff.mp hread
        have happly := hst.apply_eq h.sound
        have hreachable := h.apply (hst.fits h.sound) happly
        simp only [happly] at hs
        have hrest : (carryOut stop (.ofStatements width height (before ++ [st])) rest).result =
            .ok s := hs
        obtain ⟨sts, hsts, rfl⟩ := (ih _ hlt rest hreachable rfl).mp hrest
        exact ⟨st :: sts, .more hst hsts, by rw [List.append_assoc, List.singleton_append]⟩
    · rintro ⟨sts, hsts, hs⟩
      cases hsts with
      | @more _ sts st _ rest hst hmore =>
        have hlt : rest.length < (t :: us).length := Nat.lt_succ_of_lt hst.shorter
        have happly := hst.apply_eq h.sound
        have hreachable := h.apply (hst.fits h.sound) happly
        have hread : statement ⟨.ofStatements width height before, stop⟩ t us =
            .ok ⟨st, rest, hlt⟩ := statement_eq_ok_iff.mpr hst
        rw [hread]
        simp only [happly]
        refine (ih _ hlt rest hreachable rfl).mpr ⟨sts, hmore, ?_⟩
        rw [hs, List.append_assoc, List.singleton_append]

theorem read_result_iff [Keyword.Order] (tokens : List Token) :
    (read tokens).result = .ok s ↔ Describes .kept (content tokens) s := by
  rw [read]
  constructor
  · intro hs
    split at hs
    · cases hs
    · next width height rest hlt hread =>
      have hcanvas : IsCanvas (.blank 0 0) (content tokens) (width, height) rest :=
        canvas_eq_ok_iff.mp hread
      have hblank : (Scene.ofStatements width height []).Reachable := .blank width height
      obtain ⟨sts, hsts, rfl⟩ := (carryOut_result_iff (stop tokens) rest hblank).mp hs
      exact .scene hcanvas hsts
  · intro hs
    cases hs with
    | @scene rest width height sts hcanvas hsts =>
      have hblank : (Scene.ofStatements width height []).Reachable := .blank width height
      have hlt : rest.length < (content tokens).length := hcanvas.shorter
      have hread : canvas ⟨.blank 0 0, stop tokens⟩ (content tokens) =
          .ok ⟨(width, height), rest, hlt⟩ := canvas_eq_ok_iff.mpr hcanvas
      rw [hread]
      exact (carryOut_result_iff (stop tokens) rest hblank).mpr ⟨sts, hsts, rfl⟩

/-! ### The limits -/

theorem stated_measure_iff {x : Float} :
    Limits.stated.measure x ↔ Limits.kept.measure x ∧ ¬x.isNaN := by
  constructor
  · intro hpositive
    exact ⟨.inl hpositive, fun hnan => Binary64.not_isNaN_of_lt hpositive (.inr hnan)⟩
  · rintro ⟨hpositive | hnan, hnumber⟩
    · exact hpositive
    · exact absurd hnan hnumber

theorem stated_axes_iff {major minor : Float} (hmajor : ¬major.isNaN) (hminor : ¬minor.isNaN) :
    Limits.stated.axes major minor ↔ Limits.kept.axes major minor :=
  (or_iff_left (not_or.mpr ⟨hmajor, hminor⟩)).symm

theorem stated_admit_iff {form : Form Float} :
    Limits.stated.Admit form ↔ Limits.kept.Admit form ∧ ∀ x ∈ form.measures, ¬x.isNaN := by
  cases form with
  | circle center radius =>
    simp only [Limits.Admit, Form.measures, stated_measure_iff, List.forall_mem_singleton]
  | ellipse center major minor =>
    simp only [Limits.Admit, Form.measures, stated_measure_iff, List.forall_mem_cons]
    constructor
    · rintro ⟨⟨hmajor, hmajor'⟩, ⟨hminor, hminor'⟩, haxes⟩
      exact ⟨⟨hmajor, hminor, (stated_axes_iff hmajor' hminor').mp haxes⟩, hmajor', hminor', nofun⟩
    · rintro ⟨⟨hmajor, hminor, haxes⟩, hmajor', hminor', -⟩
      exact ⟨⟨hmajor, hmajor'⟩, ⟨hminor, hminor'⟩, (stated_axes_iff hmajor' hminor').mpr haxes⟩
  | rectangle center width height =>
    simp only [Limits.Admit, Form.measures, stated_measure_iff, List.forall_mem_cons]
    constructor
    · rintro ⟨⟨hwidth, hwidth'⟩, hheight, hheight'⟩
      exact ⟨⟨hwidth, hheight⟩, hwidth', hheight', nofun⟩
    · rintro ⟨⟨hwidth, hheight⟩, hwidth', hheight', -⟩
      exact ⟨⟨hwidth, hwidth'⟩, hheight, hheight'⟩
  | triangle | shifted | rotated | union | difference =>
    simp only [Limits.Admit, Form.measures, List.not_mem_nil]
    exact ⟨fun _ => ⟨trivial, nofun⟩, fun _ => trivial⟩

/-- No measure of the shape that a statement declares is a NaN. -/
def Measured (st : Statement) : Prop :=
  ∀ d, st.shape? = some d → ∀ x ∈ d.value.measures, ¬x.isNaN

theorem isStatement_stated_iff {st : Statement} {ts us : List Token} :
    IsStatement .stated s ts st us ↔ IsStatement .kept s ts st us ∧ Measured st := by
  constructor
  · intro h
    cases h with
    | shape hkeyword htext hname hfresh hform hrange =>
      obtain ⟨hkept, hmeasured⟩ := stated_admit_iff.mp hrange
      refine ⟨.shape hkeyword htext hname hfresh hform hkept, ?_⟩
      intro d hd
      cases hd
      exact hmeasured
    | color hkeyword htext hname hfresh hvalue =>
      exact ⟨.color hkeyword htext hname hfresh hvalue, nofun⟩
    | fill hkeyword htext htarget hvalue => exact ⟨.fill hkeyword htext htarget hvalue, nofun⟩
  · rintro ⟨h, hmeasured⟩
    cases h with
    | shape hkeyword htext hname hfresh hform hrange =>
      exact .shape hkeyword htext hname hfresh hform
        (stated_admit_iff.mpr ⟨hrange, hmeasured _ rfl⟩)
    | color hkeyword htext hname hfresh hvalue => exact .color hkeyword htext hname hfresh hvalue
    | fill hkeyword htext htarget hvalue => exact .fill hkeyword htext htarget hvalue

theorem areStatements_stated_iff {before sts : List Statement} {ts : List Token} :
    AreStatements .stated width height before ts sts ↔
      AreStatements .kept width height before ts sts ∧ ∀ st ∈ sts, Measured st := by
  induction sts generalizing before ts with
  | nil =>
    constructor
    · intro h
      cases h
      exact ⟨.none, nofun⟩
    · rintro ⟨h, -⟩
      cases h
      exact .none
  | cons st more ih =>
    rw [List.forall_mem_cons]
    constructor
    · intro h
      cases h with
      | more hst hmore =>
        obtain ⟨hkept, hmeasured⟩ := isStatement_stated_iff.mp hst
        obtain ⟨hmore, hall⟩ := ih.mp hmore
        exact ⟨.more hkept hmore, hmeasured, hall⟩
    · rintro ⟨h, hmeasured, hall⟩
      cases h with
      | more hst hmore =>
        exact .more (isStatement_stated_iff.mpr ⟨hst, hmeasured⟩) (ih.mpr ⟨hmore, hall⟩)

end Description

namespace Scene

/-- No measure of a shape is a NaN. -/
def Measured (s : Scene) : Prop :=
  ∀ shape ∈ s.drawing.shapes, ∀ x ∈ shape.form.measures, ¬x.isNaN

theorem measured_ofStatements_iff {sts : List Statement} :
    (ofStatements width height sts).Measured ↔ ∀ st ∈ sts, Description.Measured st := by
  simp only [Measured, ofStatements, List.mem_toArray, List.mem_mapIdx]
  constructor
  · intro h st hst d hd
    obtain ⟨i, hi, hget⟩ := List.getElem_of_mem (List.mem_filterMap.mpr ⟨st, hst, hd⟩)
    have hshape := h _ ⟨i, hi, rfl⟩
    rw [hget] at hshape
    exact hshape
  · rintro h shape ⟨i, hi, rfl⟩
    obtain ⟨st, hst, hd⟩ := List.mem_filterMap.mp (List.getElem_mem hi)
    exact h st hst _ hd

theorem describes_stated_iff {ts : List Token} :
    Description.Describes .stated ts s ↔ Description.Describes .kept ts s ∧ s.Measured := by
  constructor
  · rintro (⟨hcanvas, hsts⟩)
    obtain ⟨hkept, hmeasured⟩ := Description.areStatements_stated_iff.mp hsts
    exact ⟨.scene hcanvas hkept, measured_ofStatements_iff.mpr hmeasured⟩
  · rintro ⟨⟨hcanvas, hsts⟩, hmeasured⟩
    have hall := measured_ofStatements_iff.mp hmeasured
    exact .scene hcanvas (Description.areStatements_stated_iff.mpr ⟨hsts, hall⟩)

theorem build_iff_describes_kept [Description.Keyword.Order] (file : String) {tokens : List Token} :
    build? file tokens = .ok s ↔ Description.Describes .kept (Description.content tokens) s := by
  rw [← Description.read_result_iff, build?, ofTokens?]
  cases (Description.read tokens).result with
  | error r =>
    constructor
    · intro h
      cases h
    · intro h
      cases h
  | ok accepted =>
    constructor
    · intro h
      cases h
      rfl
    · intro h
      cases h
      rfl

/-- A disc whose radius is written as a NaN. -/
def unmeasuredDisc : List Token :=
  [(.name, "size"), (.number, "1"), (.number, "1"), (.name, "circ"), (.name, "disc"),
    (.openBrace, "\x7b"), (.number, "0"), (.number, "0"), (.closeBrace, "\x7d"),
    (.number, "nan")].map fun (kind, text) => ⟨kind, text, .nowhere⟩

/-- There are tokens that are accepted and that describe nothing within the stated limits. -/
theorem exists_build?_eq_ok_not_describes :
    ∃ s, build? "disc.paint" unmeasuredDisc = .ok s ∧
      ∀ other, ¬Description.Describes .stated (Description.content unmeasuredDisc) other := by
  have hnan : (build? "disc.paint" unmeasuredDisc).toOption.any (fun s =>
      s.drawing.shapes.any fun shape => shape.form.measures.any (·.isNaN)) = true := by
    decide +kernel
  cases hbuild : build? "disc.paint" unmeasuredDisc with
  | error d => rw [hbuild] at hnan; cases hnan
  | ok s =>
    refine ⟨s, rfl, ?_⟩
    intro other hother
    obtain ⟨hkept, hmeasured⟩ := describes_stated_iff.mp hother
    have hother := (build_iff_describes_kept "disc.paint").mpr hkept
    obtain rfl : s = other := Except.ok.inj (hbuild.symm.trans hother)
    rw [hbuild] at hnan
    simp only [Except.toOption, Option.any_some, Array.any_eq_true', List.any_eq_true] at hnan
    obtain ⟨shape, hshape, x, hx, hisNaN⟩ := hnan
    exact hmeasured shape hshape x hx hisNaN

/-- A list of tokens is accepted as a scene just when the tokens before the end of the file describe
it within the limits that are kept. They describe it within the stated limits as well unless a
measure of one of its shapes is a NaN. -/
theorem build?_eq_ok_iff [Description.Keyword.Order] (file : String) (tokens : List Token)
    (s : Scene) :
    (build? file tokens = .ok s ↔ Description.Describes .kept (Description.content tokens) s) ∧
      (Description.Describes .stated (Description.content tokens) s ↔
        build? file tokens = .ok s ∧ s.Measured) := by
  rw [describes_stated_iff, build_iff_describes_kept]
  exact ⟨Iff.rfl, Iff.rfl⟩

end Scene

end Easel

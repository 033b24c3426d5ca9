import Easel.Proofs.Description.Values

/-! Reading the forms of shapes and whole statements. As with numbers and points, a step of reading
succeeds exactly on the phrases of the grammar and ends where they end. -/

namespace Easel.Description

variable {l : Limits} {c : Context} {s : Scene} {ts rest : List Token}

/-! ### Keywords -/

theorem Keyword.ofText?_text (k : Keyword) : Keyword.ofText? k.text = some k := by
  cases k <;> rfl

theorem Keyword.ofText?_eq_some_iff {text : String} {k : Keyword} :
    Keyword.ofText? text = some k ↔ text = k.text := by
  constructor
  · intro hfound
    have hsame := List.find?_some hfound
    exact (eq_of_beq hsame).symm
  · rintro rfl
    exact k.ofText?_text

theorem Keyword.text_injective {k l : Keyword} (h : k.text = l.text) : k = l := by
  have hk := k.ofText?_text
  rw [h, l.ofText?_text] at hk
  exact (Option.some.inj hk).symm

/-! ### Forms -/

theorem circle_eq_ok_iff {r : Reading ts (Form Float)} :
    circle c ts = .ok r ↔ IsForm c.scene .circle ts r.value r.rest ∧ Limits.kept.Admit r.value := by
  obtain ⟨form, rest, h⟩ := r
  simp only [circle, Except.bind_eq_ok_iff, point_eq_ok_iff, positive_eq_ok_iff]
  constructor
  · rintro ⟨center, hcenter, radius, ⟨hradius, hpositive⟩, hdone⟩
    cases hdone
    exact ⟨.circle hcenter hradius, hpositive⟩
  · rintro ⟨hform, hrange⟩
    cases hform with
    | circle hcenter hradius =>
      exact ⟨⟨_, _, hcenter.shorter⟩, hcenter, ⟨_, _, hradius.shorter⟩, ⟨hradius, hrange⟩, rfl⟩

theorem ellipse_eq_ok_iff {r : Reading ts (Form Float)} :
    ellipse c ts = .ok r ↔
      IsForm c.scene .ellipse ts r.value r.rest ∧ Limits.kept.Admit r.value := by
  obtain ⟨form, rest, h⟩ := r
  simp only [ellipse, Except.bind_eq_ok_iff, point_eq_ok_iff, positive_eq_ok_iff]
  constructor
  · rintro ⟨center, hcenter, major, ⟨hmajor, hpositive⟩, minor, ⟨hminor, hpositive'⟩, hdone⟩
    split at hdone
    · cases hdone
    · next horder =>
      cases hdone
      exact ⟨.ellipse hcenter hmajor hminor, hpositive, hpositive', kept_axes_iff.mpr horder⟩
  · rintro ⟨hform, hrange⟩
    cases hform with
    | ellipse hcenter hmajor hminor =>
      obtain ⟨hpositive, hpositive', horder⟩ := hrange
      refine ⟨⟨_, _, hcenter.shorter⟩, hcenter, ⟨_, _, hmajor.shorter⟩, ⟨hmajor, hpositive⟩,
        ⟨_, _, hminor.shorter⟩, ⟨hminor, hpositive'⟩, ?_⟩
      rw [if_neg (kept_axes_iff.mp horder)]
      rfl

theorem rectangle_eq_ok_iff {r : Reading ts (Form Float)} :
    rectangle c ts = .ok r ↔
      IsForm c.scene .rectangle ts r.value r.rest ∧ Limits.kept.Admit r.value := by
  obtain ⟨form, rest, h⟩ := r
  simp only [rectangle, Except.bind_eq_ok_iff, point_eq_ok_iff, positive_eq_ok_iff]
  constructor
  · rintro ⟨center, hcenter, width, ⟨hwidth, hpositive⟩, height, ⟨hheight, hpositive'⟩, hdone⟩
    cases hdone
    exact ⟨.rectangle hcenter hwidth hheight, hpositive, hpositive'⟩
  · rintro ⟨hform, hrange⟩
    cases hform with
    | rectangle hcenter hwidth hheight =>
      obtain ⟨hpositive, hpositive'⟩ := hrange
      exact ⟨⟨_, _, hcenter.shorter⟩, hcenter, ⟨_, _, hwidth.shorter⟩, ⟨hwidth, hpositive⟩,
        ⟨_, _, hheight.shorter⟩, ⟨hheight, hpositive'⟩, rfl⟩

theorem triangle_eq_ok_iff {r : Reading ts (Form Float)} :
    triangle c ts = .ok r ↔
      IsForm c.scene .triangle ts r.value r.rest ∧ Limits.kept.Admit r.value := by
  obtain ⟨form, rest, h⟩ := r
  simp only [triangle, Except.bind_eq_ok_iff, point_eq_ok_iff]
  constructor
  · rintro ⟨v0, h0, v1, h1, v2, h2, hdone⟩
    cases hdone
    exact ⟨.triangle h0 h1 h2, trivial⟩
  · rintro ⟨hform, -⟩
    cases hform with
    | triangle h0 h1 h2 =>
      exact ⟨⟨_, _, h0.shorter⟩, h0, ⟨_, _, h1.shorter⟩, h1, ⟨_, _, h2.shorter⟩, h2, rfl⟩

theorem shifted_eq_ok_iff {r : Reading ts (Form Float)} :
    shifted c ts = .ok r ↔
      IsForm c.scene .shift ts r.value r.rest ∧ Limits.kept.Admit r.value := by
  obtain ⟨form, rest, h⟩ := r
  simp only [shifted, Except.bind_eq_ok_iff, point_eq_ok_iff, shapeReference_eq_ok_iff]
  constructor
  · rintro ⟨offset, hoffset, target, htarget, hdone⟩
    cases hdone
    exact ⟨.shift hoffset htarget, trivial⟩
  · rintro ⟨hform, -⟩
    cases hform with
    | shift hoffset htarget =>
      exact ⟨⟨_, _, hoffset.shorter⟩, hoffset, ⟨_, _, htarget.shorter⟩, htarget, rfl⟩

theorem rotated_eq_ok_iff {r : Reading ts (Form Float)} :
    rotated c ts = .ok r ↔
      IsForm c.scene .rotate ts r.value r.rest ∧ Limits.kept.Admit r.value := by
  obtain ⟨form, rest, h⟩ := r
  simp only [rotated, Except.bind_eq_ok_iff, number_eq_ok_iff, point_eq_ok_iff,
    shapeReference_eq_ok_iff]
  constructor
  · rintro ⟨degrees, hdegrees, pivot, hpivot, target, htarget, hdone⟩
    cases hdone
    exact ⟨.rotate hdegrees hpivot htarget, trivial⟩
  · rintro ⟨hform, -⟩
    cases hform with
    | rotate hdegrees hpivot htarget =>
      exact ⟨⟨_, _, hdegrees.shorter⟩, hdegrees, ⟨_, _, hpivot.shorter⟩, hpivot,
        ⟨_, _, htarget.shorter⟩, htarget, rfl⟩

theorem difference_eq_ok_iff {r : Reading ts (Form Float)} :
    difference c ts = .ok r ↔
      IsForm c.scene .difference ts r.value r.rest ∧ Limits.kept.Admit r.value := by
  obtain ⟨form, rest, h⟩ := r
  simp only [difference, Except.bind_eq_ok_iff, shapeReference_eq_ok_iff]
  constructor
  · rintro ⟨base, hbase, subtrahend, hsubtrahend, hdone⟩
    cases hdone
    exact ⟨.difference hbase hsubtrahend, trivial⟩
  · rintro ⟨hform, -⟩
    cases hform with
    | difference hbase hsubtrahend =>
      exact ⟨⟨_, _, hbase.shorter⟩, hbase, ⟨_, _, hsubtrahend.shorter⟩, hsubtrahend, rfl⟩

/-! ### Unions

The members are read as long as a name follows, so a reading of them ends before something else. -/

theorem AreShapes.shorter {ids : List Nat} (h : AreShapes s ts ids rest) :
    rest.length < ts.length := by
  induction h with
  | last hshape => exact hshape.shorter
  | more hshape _ ih => exact Nat.lt_trans ih hshape.shorter

theorem AreShapes.starts {ids : List Nat} (h : AreShapes s ts ids rest) :
    ts.head?.map (·.kind) = some .name := by
  cases h with
  | last hshape | more hshape _ =>
    cases hshape with
    | named hname _ => simp [hname]

theorem references_eq_ok_iff (c : Context) (ts : List Token) {r : Reading ts (List Nat)}
    (hstop : r.rest.head?.map (·.kind) ≠ some .name) :
    references c ts = .ok r ↔ AreShapes c.scene ts r.value r.rest := by
  obtain ⟨ids, rest, h⟩ := r
  simp only at hstop
  rw [references, Except.bind_eq_ok_iff]
  simp only [shapeReference_eq_ok_iff]
  constructor
  · rintro ⟨⟨id, us, hlt⟩, hshape, hmore⟩
    simp only at hmore
    split at hmore
    · obtain ⟨⟨more, vs, hvs⟩, hread, hdone⟩ := Except.bind_eq_ok_iff.mp hmore
      cases hdone
      exact .more hshape ((references_eq_ok_iff c us hstop).mp hread)
    · cases hmore
      exact .last hshape
  · intro hids
    cases hids with
    | last hshape => exact ⟨⟨_, _, h⟩, hshape, by rw [if_neg hstop]; rfl⟩
    | more hshape hmore =>
      have hlt := hshape.shorter
      refine ⟨⟨_, _, hlt⟩, hshape, ?_⟩
      rw [if_pos hmore.starts, Except.bind_eq_ok_iff]
      exact ⟨⟨_, _, hmore.shorter⟩, (references_eq_ok_iff c _ hstop).mpr hmore, rfl⟩
termination_by ts.length

theorem union_eq_ok_iff {r : Reading ts (Form Float)} :
    union c ts = .ok r ↔
      IsForm c.scene .union ts r.value r.rest ∧ Limits.kept.Admit r.value := by
  obtain ⟨form, rest, h⟩ := r
  have hstop : ∀ {closing : Token} {us : List Token}, closing.kind = .closeBrace →
      (closing :: us).head?.map (·.kind) ≠ some .name := by
    intro closing us hclose
    simp [hclose]
  simp only [union, expectKind, Except.bind_eq_ok_iff, expect_eq_ok_iff]
  constructor
  · rintro ⟨⟨opening, us, h1⟩, ⟨hts, hopen⟩, ⟨ids, vs, h2⟩, hids, ⟨closing, ws, h3⟩,
      ⟨hvs, hclose⟩, hdone⟩
    simp only at hts hopen hvs hclose hids
    cases hdone
    subst hts hvs
    exact ⟨.union hopen ((references_eq_ok_iff c us (hstop hclose)).mp hids) hclose, trivial⟩
  · rintro ⟨hform, -⟩
    cases hform with
    | union hopen hmembers hclose =>
      exact ⟨⟨_, _, by simp⟩, ⟨rfl, hopen⟩, ⟨_, _, hmembers.shorter⟩,
        (references_eq_ok_iff c _ (hstop hclose)).mpr hmembers, ⟨_, _, by simp⟩, ⟨rfl, hclose⟩, rfl⟩

/-! ### Statements -/

theorem IsForm.shorter {k : Keyword} {form : Form Float} (h : IsForm s k ts form rest) :
    rest.length < ts.length := by
  cases h with
  | circle hcenter hradius => exact Nat.lt_trans hradius.shorter hcenter.shorter
  | ellipse hcenter hmajor hminor | rectangle hcenter hmajor hminor =>
    exact Nat.lt_trans hminor.shorter (Nat.lt_trans hmajor.shorter hcenter.shorter)
  | triangle h0 h1 h2 => exact Nat.lt_trans h2.shorter (Nat.lt_trans h1.shorter h0.shorter)
  | shift hoffset htarget => exact Nat.lt_trans htarget.shorter hoffset.shorter
  | rotate hdegrees hpivot htarget =>
    exact Nat.lt_trans htarget.shorter (Nat.lt_trans hpivot.shorter hdegrees.shorter)
  | union _ hmembers _ =>
    have := hmembers.shorter
    simp only [List.length_cons] at *
    omega
  | difference hbase hsubtrahend => exact Nat.lt_trans hsubtrahend.shorter hbase.shorter

theorem newName_eq_ok_iff {β : Type} {table : Declarations β} {wanted : String}
    {duplicate : String → Position → Violation} {r : Reading ts Token} :
    newName c table wanted duplicate ts = .ok r ↔
      (ts = r.value :: r.rest ∧ r.value.kind = .name) ∧ table.get? r.value.text = none := by
  obtain ⟨t, rest, h⟩ := r
  simp only [newName, Except.bind_eq_ok_iff, expect_eq_ok_iff, Declarations.get?,
    Declarations.position?, Option.map_eq_none_iff]
  constructor
  · rintro ⟨⟨u, us, hlt⟩, hname, hlook⟩
    split at hlook
    · cases hlook
    · next hfresh =>
      cases hlook
      exact ⟨hname, Option.map_eq_none_iff.mp hfresh⟩
  · rintro ⟨hname, hfresh⟩
    exact ⟨⟨t, rest, h⟩, hname, by simp only [hfresh]; rfl⟩

/-- A declaration reads as its form does, with a new name in front of it. -/
theorem shapeDeclaration_eq_ok_iff {keyword : Token} {k : Keyword}
    (hkeyword : keyword.kind = .name) (htext : keyword.text = k.text)
    (hk : k ≠ .color) (hf : k ≠ .fill)
    {body : Context → (ts : List Token) → Except Rejection (Reading ts (Form Float))}
    (hbody : ∀ us (r : Reading us (Form Float)),
      body c us = .ok r ↔ IsForm c.scene k us r.value r.rest ∧ Limits.kept.Admit r.value)
    {r : Reading ts Statement} :
    shapeDeclaration c body ts = .ok r ↔
      IsStatement .kept c.scene (keyword :: ts) r.value r.rest := by
  obtain ⟨st, rest, h⟩ := r
  simp only [shapeDeclaration, newShapeName, Except.bind_eq_ok_iff, newName_eq_ok_iff, hbody]
  constructor
  · rintro ⟨⟨name, us, h1⟩, ⟨⟨hts, hname⟩, hfresh⟩, ⟨form, vs, h2⟩, ⟨hform, hrange⟩, hdone⟩
    simp only at hts hname hfresh hform hrange
    cases hdone
    subst hts
    exact .shape hkeyword htext hname hfresh hform hrange
  · intro hstatement
    cases hstatement with
    | shape _ htext' hname hfresh hform hrange =>
      obtain rfl := Keyword.text_injective (htext.symm.trans htext')
      exact ⟨⟨_, _, by simp⟩, ⟨⟨rfl, hname⟩, hfresh⟩, ⟨_, _, hform.shorter⟩, ⟨hform, hrange⟩, rfl⟩
    | color _ htext' _ _ _ => exact absurd (Keyword.text_injective (htext.symm.trans htext')) hk
    | fill _ htext' _ _ => exact absurd (Keyword.text_injective (htext.symm.trans htext')) hf

theorem colorDeclaration_eq_ok_iff {keyword : Token} (hkeyword : keyword.kind = .name)
    (htext : keyword.text = Keyword.color.text) {r : Reading ts Statement} :
    colorDeclaration c ts = .ok r ↔ IsStatement .kept c.scene (keyword :: ts) r.value r.rest := by
  obtain ⟨st, rest, h⟩ := r
  simp only [colorDeclaration, newColorName, Except.bind_eq_ok_iff, newName_eq_ok_iff,
    color_eq_ok_iff]
  constructor
  · rintro ⟨⟨name, us, h1⟩, ⟨⟨hts, hname⟩, hfresh⟩, ⟨value, vs, h2⟩, hvalue, hdone⟩
    simp only at hts hname hfresh hvalue
    cases hdone
    subst hts
    exact .color hkeyword htext hname hfresh hvalue
  · intro hstatement
    cases hstatement with
    | shape _ htext' _ _ hform _ =>
      obtain rfl := Keyword.text_injective (htext.symm.trans htext')
      cases hform
    | color _ _ hname hfresh hvalue =>
      exact ⟨⟨_, _, by simp⟩, ⟨⟨rfl, hname⟩, hfresh⟩, ⟨_, _, hvalue.shorter⟩, hvalue, rfl⟩
    | fill _ htext' _ _ => cases Keyword.text_injective (htext.symm.trans htext')

theorem fill_eq_ok_iff {keyword : Token} (hkeyword : keyword.kind = .name)
    (htext : keyword.text = Keyword.fill.text) {r : Reading ts Statement} :
    fill c ts = .ok r ↔ IsStatement .kept c.scene (keyword :: ts) r.value r.rest := by
  obtain ⟨st, rest, h⟩ := r
  simp only [fill, Except.bind_eq_ok_iff, shapeReference_eq_ok_iff, color_eq_ok_iff]
  constructor
  · rintro ⟨target, htarget, value, hvalue, hdone⟩
    cases hdone
    exact .fill hkeyword htext htarget hvalue
  · intro hstatement
    cases hstatement with
    | shape _ htext' _ _ hform _ =>
      obtain rfl := Keyword.text_injective (htext.symm.trans htext')
      cases hform
    | color _ htext' _ _ _ => cases Keyword.text_injective (htext.symm.trans htext')
    | fill _ _ htarget hvalue =>
      exact ⟨⟨_, _, htarget.shorter⟩, htarget, ⟨_, _, hvalue.shorter⟩, hvalue, rfl⟩

theorem body_eq_ok_iff {keyword : Token} {k : Keyword} (hkeyword : keyword.kind = .name)
    (htext : keyword.text = k.text) {r : Reading ts Statement} :
    body c k ts = .ok r ↔ IsStatement .kept c.scene (keyword :: ts) r.value r.rest := by
  cases k with
  | circle =>
    exact shapeDeclaration_eq_ok_iff hkeyword htext nofun nofun fun _ _ => circle_eq_ok_iff
  | ellipse =>
    exact shapeDeclaration_eq_ok_iff hkeyword htext nofun nofun fun _ _ => ellipse_eq_ok_iff
  | rectangle =>
    exact shapeDeclaration_eq_ok_iff hkeyword htext nofun nofun fun _ _ => rectangle_eq_ok_iff
  | triangle =>
    exact shapeDeclaration_eq_ok_iff hkeyword htext nofun nofun fun _ _ => triangle_eq_ok_iff
  | shift =>
    exact shapeDeclaration_eq_ok_iff hkeyword htext nofun nofun fun _ _ => shifted_eq_ok_iff
  | rotate =>
    exact shapeDeclaration_eq_ok_iff hkeyword htext nofun nofun fun _ _ => rotated_eq_ok_iff
  | union =>
    exact shapeDeclaration_eq_ok_iff hkeyword htext nofun nofun fun _ _ => union_eq_ok_iff
  | difference =>
    exact shapeDeclaration_eq_ok_iff hkeyword htext nofun nofun fun _ _ => difference_eq_ok_iff
  | color => exact colorDeclaration_eq_ok_iff hkeyword htext
  | fill => exact fill_eq_ok_iff hkeyword htext

theorem IsStatement.keyword {t : Token} {st : Statement} (h : IsStatement l s (t :: ts) st rest) :
    t.kind = .name ∧ ∃ k : Keyword, t.text = k.text := by
  cases h with
  | shape hkeyword htext _ _ _ _ => exact ⟨hkeyword, _, htext⟩
  | color hkeyword htext _ _ _ => exact ⟨hkeyword, _, htext⟩
  | fill hkeyword htext _ _ => exact ⟨hkeyword, _, htext⟩

theorem IsStatement.shorter {t : Token} {st : Statement} (h : IsStatement l s (t :: ts) st rest) :
    rest.length < ts.length := by
  cases h with
  | shape _ _ _ _ hform _ => exact Nat.lt_succ_of_lt hform.shorter
  | color _ _ _ _ hvalue => exact Nat.lt_succ_of_lt hvalue.shorter
  | fill _ _ htarget hvalue => exact Nat.lt_trans hvalue.shorter htarget.shorter

theorem statement_eq_ok_iff [Keyword.Order] {t : Token} {r : Reading (t :: ts) Statement} :
    statement c t ts = .ok r ↔ IsStatement .kept c.scene (t :: ts) r.value r.rest := by
  obtain ⟨st, rest, h⟩ := r
  rw [statement]
  constructor
  · intro hread
    split at hread
    · cases hread
    · next hname =>
      split at hread
      · cases hread
      · next k hfound =>
        obtain ⟨inner, hinner, hdone⟩ := Except.bind_eq_ok_iff.mp hread
        cases hdone
        have hkind := Decidable.of_not_not hname
        exact (body_eq_ok_iff hkind (Keyword.ofText?_eq_some_iff.mp hfound)).mp hinner
  · intro hstatement
    obtain ⟨hkind, k, htext⟩ := hstatement.keyword
    rw [if_neg (not_not_intro hkind), Keyword.ofText?_eq_some_iff.mpr htext]
    simp only [Except.bind_eq_ok_iff]
    exact ⟨⟨st, rest, hstatement.shorter⟩, (body_eq_ok_iff hkind htext).mpr hstatement, rfl⟩

/-! ### The canvas -/

theorem not_lt_zero_iff {x : Float} (hwhole : Binary64.isWhole x = true) :
    ¬x < 0.0 ↔ 0.0 ≤ x :=
  Binary64.not_lt_iff_le (Binary64.not_isNaN_of_isWhole hwhole) (by decide)

theorem addressable_iff {x : Float} (hwhole : Binary64.isWhole x = true) :
    ¬18446744073709551616.0 ≤ x ↔ x < 18446744073709551616.0 :=
  Binary64.not_le_iff_lt (by decide +kernel) (Binary64.not_isNaN_of_isWhole hwhole)

theorem dimension_eq_ok_iff {quantity : Quantity} {r : Reading ts Nat} :
    dimension c quantity ts = .ok r ↔ IsDimension c.scene ts r.value r.rest := by
  obtain ⟨n, rest, h⟩ := r
  simp only [dimension, Except.bind_eq_ok_iff, number_eq_ok_iff]
  constructor
  · rintro ⟨⟨x, us, hlt⟩, hx, hcheck⟩
    simp only at hx
    split at hcheck
    · cases hcheck
    · next hinteger =>
      obtain ⟨hsign, hwhole⟩ : ¬x < 0.0 ∧ Binary64.isWhole x = true := by simpa using hinteger
      split at hcheck
      · cases hcheck
      · next hfits =>
        cases hcheck
        have hsign := (not_lt_zero_iff hwhole).mp hsign
        exact .whole hx hsign hwhole ((addressable_iff hwhole).mp hfits)
  · rintro (⟨hx, hsign, hwhole, hfits⟩)
    refine ⟨⟨_, _, h⟩, hx, ?_⟩
    have hinteger := (not_lt_zero_iff hwhole).mpr hsign
    simp only [hinteger, hwhole, (addressable_iff hwhole).mpr hfits]
    rfl

theorem IsDimension.shorter {n : Nat} (h : IsDimension s ts n rest) : rest.length < ts.length := by
  cases h with
  | whole hx _ _ _ => exact hx.shorter

theorem IsCanvas.shorter {size : Nat × Nat} (h : IsCanvas s ts size rest) :
    rest.length < ts.length := by
  cases h with
  | size _ _ hwidth hheight _ =>
    exact Nat.lt_succ_of_lt (Nat.lt_trans hheight.shorter hwidth.shorter)

theorem canvas_eq_ok_iff {r : Reading ts (Nat × Nat)} :
    canvas c ts = .ok r ↔ IsCanvas c.scene ts r.value r.rest := by
  obtain ⟨⟨width, height⟩, rest, h⟩ := r
  cases ts with
  | nil => exact absurd h (Nat.not_lt_zero _)
  | cons t us =>
    rw [canvas]
    constructor
    · intro hread
      split at hread
      · next hkeyword =>
        simp only [Except.bind_eq_ok_iff, dimension_eq_ok_iff] at hread
        obtain ⟨⟨w, vs, h1⟩, hwidth, ⟨k, ws, h2⟩, hheight, hcheck⟩ := hread
        split at hcheck
        · cases hcheck
        · next hfits =>
          cases hcheck
          exact .size hkeyword.1 hkeyword.2 hwidth hheight (Nat.le_of_not_lt hfits)
      · cases hread
    · intro hcanvas
      simp only at hcanvas
      cases hcanvas with
      | size hkeyword htext hwidth hheight hfits =>
        rw [if_pos ⟨hkeyword, htext⟩]
        simp only [Except.bind_eq_ok_iff, dimension_eq_ok_iff]
        refine ⟨⟨_, _, hwidth.shorter⟩, hwidth, ⟨_, _, hheight.shorter⟩, hheight, ?_⟩
        rw [if_neg (Nat.not_lt_of_le hfits)]
        rfl

end Easel.Description

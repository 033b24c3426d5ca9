import Easel.Proofs.Description.Grammar
import Easel.Proofs.Diagnostic.Steps
import Easel.Proofs.Number.Comparison

/-! Reading numbers, points and colours. Each step of reading succeeds exactly on the phrases of the
grammar, and ends where they end. Numbers, points, operations and lists of points refer to one
another, so they are settled together, by induction on the number of tokens. -/

namespace Easel

namespace Description

variable {c : Context} {s : Scene} {ts rest : List Token}

/-! ### Phrases take tokens -/

mutual

theorem IsNumber.shorter {ts rest : List Token} {x : Float} :
    IsNumber s ts x rest → rest.length < ts.length
  | .literal _ _ => Nat.lt_succ_self _
  | .coordinate hpoint _ _ _ => by
    have := hpoint.shorter
    simp only [List.length_cons] at this
    omega

theorem IsPoint.shorter {ts rest : List Token} {p : Point Float} :
    IsPoint s ts p rest → rest.length < ts.length
  | .pair _ hx hy _ => by
    have := hx.shorter
    have := hy.shorter
    simp only [List.length_cons] at *
    omega
  | .landmark .. => by
    simp only [List.length_cons]
    omega
  | .expression _ _ hoperation _ => by
    have := hoperation.shorter
    simp only [List.length_cons] at *
    omega

theorem IsOperation.shorter {operator : Token} {ts rest : List Token} {p : Point Float} :
    IsOperation s operator ts p rest → rest.length < ts.length
  | .sum _ hpoints | .difference _ hpoints => hpoints.shorter
  | .multiple _ hpoint hk | .quotient _ hpoint hk _ => Nat.lt_trans hk.shorter hpoint.shorter

theorem ArePoints.shorter {ts rest : List Token} {p : Point Float} {ps : List (Point Float)} :
    ArePoints s ts p ps rest → rest.length < ts.length
  | .last hpoint => hpoint.shorter
  | .more hpoint hmore => Nat.lt_trans hmore.shorter hpoint.shorter

end

theorem IsShape.shorter {id : Nat} : IsShape s ts id rest → rest.length < ts.length
  | .named _ _ => Nat.lt_succ_self _

/-- Whether the next token can start a point. -/
def StartsPoint (ts : List Token) : Prop := ∃ t us, ts = t :: us ∧ t.kind.startsPoint = true

theorem IsPoint.starts {p : Point Float} (h : IsPoint s ts p rest) : StartsPoint ts := by
  cases h with
  | pair hopen _ _ _ => exact ⟨_, _, rfl, by rw [hopen]; rfl⟩
  | landmark hshape _ _ _ _ => exact ⟨_, _, rfl, by rw [hshape]; rfl⟩
  | expression hopen _ _ _ => exact ⟨_, _, rfl, by rw [hopen]; rfl⟩

theorem ArePoints.starts {p : Point Float} {ps : List (Point Float)}
    (h : ArePoints s ts p ps rest) : StartsPoint ts := by
  cases h with
  | last hpoint => exact hpoint.starts
  | more hpoint _ => exact hpoint.starts

theorem startsPoint_iff :
    (ts.head?.map (·.kind.startsPoint)).getD false = true ↔ StartsPoint ts := by
  cases ts with
  | nil => simp [StartsPoint]
  | cons t us => simp [StartsPoint]

theorem not_startsPoint_of_closeParen {t : Token} (h : t.kind = .closeParen) :
    ¬StartsPoint (t :: ts) := by
  rintro ⟨_, _, hcons, hstarts⟩
  cases hcons
  rw [h] at hstarts
  cases hstarts

/-! ### Names and single tokens -/

theorem expect_eq_ok_iff {kind : TokenKind} {wanted : String} {r : Reading ts Token} :
    expect c kind wanted ts = .ok r ↔ ts = r.value :: r.rest ∧ r.value.kind = kind := by
  obtain ⟨t, rest, h⟩ := r
  cases ts with
  | nil => simp [expect]
  | cons u us =>
    by_cases hkind : u.kind = kind
    · simp only [expect, if_pos hkind, Except.ok.injEq, Reading.mk.injEq, List.cons.injEq]
      constructor
      · rintro ⟨ht, hr⟩
        exact ⟨⟨ht, hr⟩, ht ▸ hkind⟩
      · rintro ⟨htokens, -⟩
        exact htokens
    · simp only [expect, if_neg hkind, List.cons.injEq]
      constructor
      · intro hread
        cases hread
      · rintro ⟨⟨ht, -⟩, hk⟩
        exact absurd (ht ▸ hk) hkind

theorem shapeReference_eq_ok_iff {r : Reading ts Nat} :
    shapeReference c ts = .ok r ↔ IsShape c.scene ts r.value r.rest := by
  obtain ⟨id, rest, h⟩ := r
  simp only [shapeReference, Except.bind_eq_ok_iff, expect_eq_ok_iff]
  constructor
  · rintro ⟨⟨t, us, hlt⟩, ⟨hts, hkind⟩, hlook⟩
    simp only at hts hkind hlook
    subst hts
    split at hlook
    · next found hfound =>
      cases hlook
      exact .named hkind hfound
    · cases hlook
  · rintro (⟨hname, hid⟩)
    exact ⟨⟨_, _, h⟩, ⟨rfl, hname⟩, by simp only [hid]; rfl⟩

theorem namedPoint_eq_ok_iff {t : Token} {us : List Token} (ht : t.kind = .name)
    {r : Reading (t :: us) (Point Float)} :
    namedPoint c (t :: us) = .ok r ↔ IsPoint c.scene (t :: us) r.value r.rest := by
  obtain ⟨p, rest, h⟩ := r
  simp only [namedPoint, expectKind, Except.bind_eq_ok_iff, expect_eq_ok_iff,
    shapeReference_eq_ok_iff]
  constructor
  · rintro ⟨⟨id, r1, h1⟩, hshape, ⟨dot, r2, h2⟩, ⟨hr1, hdot⟩, ⟨mark, r3, h3⟩, ⟨hr2, hmark⟩, hlook⟩
    simp only at hshape hr1 hr2 hdot hmark hlook
    cases hshape with
    | named hname hid =>
      subst hr1 hr2
      split at hlook
      · next found hfound =>
        cases hlook
        exact .landmark hname hid hdot hmark hfound
      · cases hlook
  · intro hpoint
    cases hpoint with
    | pair hopen _ _ _ => rw [hopen] at ht; cases ht
    | expression hopen _ _ _ => rw [hopen] at ht; cases ht
    | landmark hshape hid hdot hmark hpoint =>
      refine ⟨⟨_, _, by simp⟩, .named hshape hid, ⟨_, _, by simp⟩, ⟨rfl, hdot⟩,
        ⟨_, _, by simp⟩, ⟨rfl, hmark⟩, ?_⟩
      simp only [hpoint]
      rfl

/-! ### Numbers and points -/

/-- Reading numbers, points, lists of points and operations from `ts` follows the grammar. Where
further points may come, this holds of what ends before a token that starts none. -/
structure Follows (c : Context) (ts : List Token) : Prop where
  number : ∀ r, number c ts = .ok r ↔ IsNumber c.scene ts r.value r.rest
  point : ∀ r, point c ts = .ok r ↔ IsPoint c.scene ts r.value r.rest
  points : ∀ r, ¬StartsPoint r.rest →
    (points c ts = .ok r ↔ ArePoints c.scene ts r.value.1 r.value.2 r.rest)
  operation : ∀ operator r, ¬StartsPoint r.rest →
    (operation c operator ts = .ok r ↔ IsOperation c.scene operator ts r.value r.rest)

theorem coordinate_eq_ok_iff {p : Point Float} {axis : Token} {x : Float} :
    coordinate p axis = .ok x ↔ axis.text = "x" ∧ x = p.x ∨ axis.text = "y" ∧ x = p.y := by
  unfold coordinate
  by_cases hx : axis.text = "x"
  · simp [hx, eq_comm]
  · by_cases hy : axis.text = "y" <;> simp [hx, hy, eq_comm]

/-- A number is read like the grammar says if the point that it may start with is. -/
theorem number_iff (hpoint : ∀ r, point c ts = .ok r ↔ IsPoint c.scene ts r.value r.rest)
    (r : Reading ts Float) : number c ts = .ok r ↔ IsNumber c.scene ts r.value r.rest := by
  obtain ⟨x, rest, h⟩ := r
  cases ts with
  | nil => exact absurd h (Nat.not_lt_zero _)
  | cons t us =>
    rw [number]
    constructor
    · intro hread
      by_cases hkind : t.kind = .number
      · rw [if_pos hkind] at hread
        split at hread
        · next found hfound =>
          cases hread
          exact .literal hkind hfound
        · cases hread
      · rw [if_neg hkind] at hread
        split at hread
        · simp only [expectKind, Except.bind_eq_ok_iff, expect_eq_ok_iff, coordinate_eq_ok_iff]
            at hread
          obtain ⟨⟨p, r1, h1⟩, hp, ⟨dot, r2, h2⟩, ⟨hr1, hdot⟩, ⟨axis, r3, h3⟩, ⟨hr2, haxis⟩, y,
            hy, hdone⟩ := hread
          simp only at hr1 hr2 hdot haxis hy
          cases hdone
          subst hr1 hr2
          exact .coordinate ((hpoint _).mp hp) hdot haxis hy
        · cases hread
    · intro hnumber
      simp only at hnumber
      cases hnumber with
      | literal hkind hread => rw [if_pos hkind, hread]
      | coordinate hpt hdot haxis hx =>
        obtain ⟨_, _, hcons, hstarts⟩ := hpt.starts
        cases hcons
        have hkind : t.kind ≠ .number := fun hnum => by rw [hnum] at hstarts; cases hstarts
        rw [if_neg hkind, if_pos hstarts]
        simp only [expectKind, Except.bind_eq_ok_iff, expect_eq_ok_iff, coordinate_eq_ok_iff]
        exact ⟨⟨_, _, hpt.shorter⟩, (hpoint _).mpr hpt, ⟨_, _, by simp⟩, ⟨rfl, hdot⟩,
          ⟨_, _, by simp⟩, ⟨rfl, haxis⟩, x, hx, rfl⟩

/-- A point is read like the grammar says if the values inside it are. -/
theorem point_iff (ih : ∀ us, us.length < ts.length → Follows c us) (r : Reading ts (Point Float)) :
    point c ts = .ok r ↔ IsPoint c.scene ts r.value r.rest := by
  obtain ⟨p, rest, h⟩ := r
  cases ts with
  | nil => exact absurd h (Nat.not_lt_zero _)
  | cons t us =>
    rw [point]
    constructor
    · intro hread
      split at hread
      · next hkind =>
        simp only [expectKind, Except.bind_eq_ok_iff, expect_eq_ok_iff] at hread
        obtain ⟨⟨x, r1, h1⟩, hx, ⟨y, r2, h2⟩, hy, ⟨closing, r3, h3⟩, ⟨hr2, hclose⟩, hdone⟩ := hread
        simp only at hr2 hclose
        cases hdone
        subst hr2
        exact .pair hkind (((ih us (by simp)).number _).mp hx)
          (((ih r1 (Nat.lt_succ_of_lt h1)).number _).mp hy) hclose
      · next hkind => exact (namedPoint_eq_ok_iff hkind).mp hread
      · next hkind =>
        simp only [expectKind, Except.bind_eq_ok_iff, expect_eq_ok_iff] at hread
        obtain ⟨⟨operator, r1, h1⟩, ⟨hus, hop⟩, ⟨q, r2, h2⟩, hoperation, ⟨closing, r3, h3⟩,
          ⟨hr2, hclose⟩, hdone⟩ := hread
        simp only at hus hop hr2 hclose
        cases hdone
        subst hus hr2
        exact .expression hkind hop (((ih r1 (Nat.lt_succ_of_lt h1)).operation _ _
          (not_startsPoint_of_closeParen hclose)).mp hoperation) hclose
      · cases hread
    · intro hpoint
      simp only at hpoint
      cases hpoint with
      | pair hopen hx hy hclose =>
        simp only [hopen, expectKind, Except.bind_eq_ok_iff, expect_eq_ok_iff]
        have hlt := hx.shorter
        exact ⟨⟨_, _, hlt⟩, ((ih us (by simp)).number _).mpr hx, ⟨_, _, hy.shorter⟩,
          ((ih _ (Nat.lt_succ_of_lt hlt)).number _).mpr hy, ⟨_, _, by simp⟩, ⟨rfl, hclose⟩, rfl⟩
      | landmark hshape hid hdot hmark hpoint =>
        simp only [hshape]
        exact (namedPoint_eq_ok_iff hshape).mpr (.landmark hshape hid hdot hmark hpoint)
      | @expression _ operator closing vs _ _ hopen hop hoperation hclose =>
        simp only [hopen, expectKind, Except.bind_eq_ok_iff, expect_eq_ok_iff]
        exact ⟨⟨_, _, by simp⟩, ⟨rfl, hop⟩, ⟨_, _, hoperation.shorter⟩,
          ((ih vs (by simp only [List.length_cons]; omega)).operation operator
            ⟨_, _, hoperation.shorter⟩ (not_startsPoint_of_closeParen hclose)).mpr hoperation,
          ⟨_, _, by simp⟩, ⟨rfl, hclose⟩, rfl⟩

/-- Points are read like the grammar says if the first one and all shorter lists are. -/
theorem points_iff (hpoint : ∀ r, point c ts = .ok r ↔ IsPoint c.scene ts r.value r.rest)
    (ih : ∀ us, us.length < ts.length → Follows c us)
    (r : Reading ts (Point Float × List (Point Float))) (hstop : ¬StartsPoint r.rest) :
    points c ts = .ok r ↔ ArePoints c.scene ts r.value.1 r.value.2 r.rest := by
  obtain ⟨⟨p, ps⟩, rest, h⟩ := r
  rw [points]
  simp only [Except.bind_eq_ok_iff] at hstop ⊢
  constructor
  · rintro ⟨⟨q, us, hlt⟩, hq, hrest⟩
    have hfirst := (hpoint _).mp hq
    split at hrest
    · next hstarts =>
      obtain ⟨⟨⟨q', qs⟩, vs, hvs⟩, hqs, hdone⟩ := Except.bind_eq_ok_iff.mp hrest
      cases hdone
      exact .more hfirst (((ih us hlt).points _ hstop).mp hqs)
    · cases hrest
      exact .last hfirst
  · intro hpoints
    cases hpoints with
    | last hlast =>
      refine ⟨⟨p, rest, h⟩, (hpoint _).mpr hlast, ?_⟩
      rw [if_neg (mt startsPoint_iff.mp hstop)]
      rfl
    | @more _ us _ _ q qs hfirst hmore =>
      have hlt := hfirst.shorter
      refine ⟨⟨p, us, hlt⟩, (hpoint _).mpr hfirst, ?_⟩
      rw [if_pos (startsPoint_iff.mpr hmore.starts), Except.bind_eq_ok_iff]
      exact ⟨⟨(q, qs), rest, hmore.shorter⟩, ((ih us hlt).points _ hstop).mpr hmore, rfl⟩

/-- An operation is read like the grammar says if its operands are. -/
theorem operation_iff (hpoint : ∀ r, point c ts = .ok r ↔ IsPoint c.scene ts r.value r.rest)
    (hpoints : ∀ r, ¬StartsPoint r.rest →
      (points c ts = .ok r ↔ ArePoints c.scene ts r.value.1 r.value.2 r.rest))
    (ih : ∀ us, us.length < ts.length → Follows c us) (operator : Token)
    (r : Reading ts (Point Float)) (hstop : ¬StartsPoint r.rest) :
    operation c operator ts = .ok r ↔ IsOperation c.scene operator ts r.value r.rest := by
  obtain ⟨p, rest, h⟩ := r
  rw [operation]
  constructor
  · intro hread
    split at hread
    · next htext =>
      obtain ⟨⟨⟨q, qs⟩, us, hlt⟩, hqs, hdone⟩ := Except.bind_eq_ok_iff.mp hread
      cases hdone
      exact .sum htext ((hpoints _ hstop).mp hqs)
    split at hread
    · next htext =>
      obtain ⟨⟨⟨q, qs⟩, us, hlt⟩, hqs, hdone⟩ := Except.bind_eq_ok_iff.mp hread
      cases hdone
      exact .difference htext ((hpoints _ hstop).mp hqs)
    split at hread
    · next htext =>
      simp only [Except.bind_eq_ok_iff] at hread
      obtain ⟨⟨q, us, hlt⟩, hq, ⟨k, vs, hvs⟩, hk, hdone⟩ := hread
      cases hdone
      exact .multiple htext ((hpoint _).mp hq) (((ih us hlt).number _).mp hk)
    split at hread
    · next htext =>
      simp only [Except.bind_eq_ok_iff] at hread
      obtain ⟨⟨q, us, hlt⟩, hq, ⟨k, vs, hvs⟩, hk, hdone⟩ := hread
      split at hdone
      · cases hdone
      · next hzero =>
        cases hdone
        exact .quotient htext ((hpoint _).mp hq) (((ih us hlt).number _).mp hk) hzero
    · cases hread
  · intro hoperation
    simp only at hoperation
    cases hoperation with
    | sum htext hps =>
      rw [if_pos htext, Except.bind_eq_ok_iff]
      exact ⟨⟨(_, _), _, h⟩, (hpoints _ hstop).mpr hps, rfl⟩
    | difference htext hps =>
      rw [if_neg (by rw [htext]; decide), if_pos htext, Except.bind_eq_ok_iff]
      exact ⟨⟨(_, _), _, h⟩, (hpoints _ hstop).mpr hps, rfl⟩
    | multiple htext hq hk =>
      rw [if_neg (by rw [htext]; decide), if_neg (by rw [htext]; decide), if_pos htext]
      simp only [Except.bind_eq_ok_iff]
      have hlt := hq.shorter
      exact ⟨⟨_, _, hlt⟩, (hpoint _).mpr hq, ⟨_, _, hk.shorter⟩, ((ih _ hlt).number _).mpr hk, rfl⟩
    | quotient htext hq hk hzero =>
      rw [if_neg (by rw [htext]; decide), if_neg (by rw [htext]; decide),
        if_neg (by rw [htext]; decide), if_pos htext]
      simp only [Except.bind_eq_ok_iff]
      have hlt := hq.shorter
      exact ⟨⟨_, _, hlt⟩, (hpoint _).mpr hq, ⟨_, _, hk.shorter⟩, ((ih _ hlt).number _).mpr hk, by
        rw [if_neg hzero]; rfl⟩

theorem follows (c : Context) (ts : List Token) : Follows c ts :=
  have hshorter : ∀ us, us.length < ts.length → Follows c us := fun us _ => follows c us
  have hpoint := point_iff hshorter
  have hpoints := points_iff hpoint hshorter
  ⟨number_iff hpoint, hpoint, hpoints, operation_iff hpoint hpoints hshorter⟩
termination_by ts.length

theorem number_eq_ok_iff {r : Reading ts Float} :
    number c ts = .ok r ↔ IsNumber c.scene ts r.value r.rest :=
  (follows c ts).number r

theorem point_eq_ok_iff {r : Reading ts (Point Float)} :
    point c ts = .ok r ↔ IsPoint c.scene ts r.value r.rest :=
  (follows c ts).point r

/-! ### Measures and colours -/

theorem kept_measure_iff {x : Float} : Limits.kept.measure x ↔ ¬x ≤ 0.0 := by
  have hzero : ¬(0.0 : Float).isNaN := by decide
  rw [Binary64.not_le_iff, or_iff_left hzero]
  exact Iff.rfl

theorem kept_axes_iff {major minor : Float} : Limits.kept.axes major minor ↔ ¬major < minor :=
  Binary64.not_lt_iff.symm

theorem positive_eq_ok_iff {quantity : Quantity} {r : Reading ts Float} :
    positive c quantity ts = .ok r ↔
      IsNumber c.scene ts r.value r.rest ∧ Limits.kept.measure r.value := by
  obtain ⟨x, rest, h⟩ := r
  simp only [positive, Except.bind_eq_ok_iff, number_eq_ok_iff, kept_measure_iff]
  constructor
  · rintro ⟨⟨y, us, hlt⟩, hy, hcheck⟩
    split at hcheck
    · cases hcheck
    · next hpositive =>
      cases hcheck
      exact ⟨hy, hpositive⟩
  · rintro ⟨hx, hpositive⟩
    exact ⟨⟨x, rest, h⟩, hx, by rw [if_neg hpositive]; rfl⟩

theorem channel_eq_ok_iff {r : Reading ts Float} :
    channel c ts = .ok r ↔ IsChannel c.scene ts r.value r.rest := by
  obtain ⟨x, rest, h⟩ := r
  simp only [channel, Except.bind_eq_ok_iff, number_eq_ok_iff, IsChannel]
  constructor
  · rintro ⟨⟨y, us, hlt⟩, hy, hcheck⟩
    split at hcheck
    · cases hcheck
    · next hrange =>
      cases hcheck
      exact ⟨hy, by simpa [Color.isChannel] using hrange⟩
  · rintro ⟨hx, hrange⟩
    exact ⟨⟨x, rest, h⟩, hx, by rw [if_neg (by simpa [Color.isChannel] using hrange)]; rfl⟩

theorem IsColor.shorter {value : Color} (h : IsColor s ts value rest) :
    rest.length < ts.length := by
  cases h with
  | channels _ hred hgreen hblue _ =>
    have hr := hred.1.shorter
    have hg := hgreen.1.shorter
    have hb := hblue.1.shorter
    simp only [List.length_cons] at *
    omega
  | named _ _ => exact Nat.lt_succ_self _

theorem color_eq_ok_iff {r : Reading ts Color} :
    color c ts = .ok r ↔ IsColor c.scene ts r.value r.rest := by
  obtain ⟨value, rest, h⟩ := r
  cases ts with
  | nil => exact absurd h (Nat.not_lt_zero _)
  | cons t us =>
    rw [color]
    constructor
    · intro hread
      split at hread
      · next hopen =>
        simp only [expectKind, Except.bind_eq_ok_iff, expect_eq_ok_iff, channel_eq_ok_iff] at hread
        obtain ⟨⟨red, r1, h1⟩, hred, ⟨green, r2, h2⟩, hgreen, ⟨blue, r3, h3⟩, hblue,
          ⟨closing, r4, h4⟩, ⟨hr3, hclose⟩, hdone⟩ := hread
        simp only at hr3 hclose
        cases hdone
        subst hr3
        exact .channels hopen hred hgreen hblue hclose
      · next hname =>
        split at hread
        · next found hfound =>
          cases hread
          exact .named hname hfound
        · cases hread
      · cases hread
    · intro hcolor
      simp only at hcolor
      cases hcolor with
      | channels hopen hred hgreen hblue hclose =>
        simp only [hopen, expectKind, Except.bind_eq_ok_iff, expect_eq_ok_iff, channel_eq_ok_iff]
        exact ⟨⟨_, _, hred.1.shorter⟩, hred, ⟨_, _, hgreen.1.shorter⟩, hgreen,
          ⟨_, _, hblue.1.shorter⟩, hblue, ⟨_, _, by simp⟩, ⟨rfl, hclose⟩, rfl⟩
      | named hname hvalue => simp only [hname, hvalue]

end Description

end Easel

import Easel.Proofs.Description.Statements
import Easel.Proofs.Scene.Sound

/-! How a description is rejected. Every step of reading leaves an end of the tokens that it starts
from or ends with one of a few rejections, each of which blames one of these tokens or their end,
and says of the scene so far why. -/

namespace Easel

/-- A token that messages call `wanted` is of this kind. -/
def TokenKind.OnlyCalled (kind : TokenKind) (wanted : String) : Prop :=
  ∀ k : TokenKind, k.description = wanted → k = kind

/-- Messages call no two kinds of tokens the same. -/
theorem TokenKind.onlyCalled_description (kind : TokenKind) : kind.OnlyCalled kind.description := by
  intro k
  cases k <;> cases kind <;> decide

theorem TokenKind.onlyCalled_shapeName : name.OnlyCalled "a shape name" := by
  rintro ⟨⟩ <;> decide

namespace Description

variable {c : Context} {us : List Token}

/-- The places that can be blamed while the tokens `us` are read: theirs and that of the end. -/
def Blames (stop : Position) (us : List Token) (p : Position) : Prop :=
  p = stop ∨ ∃ t ∈ us, p = t.position

/-- What a rejection can say is wanted: a token of some kind, or what tokens stand for. -/
def IsWanted (wanted : String) : Prop :=
  (∃ kind : TokenKind, wanted = kind.description) ∨
    wanted ∈ ["a shape name", "a color name", "a point name", "a coordinate", "a point", "a color"]

/-- The advice on a landmark that a shape does not have: the names of those that it has. -/
def landmarkAdvice (s : Scene) (id : Nat) : String :=
  let name := s.drawing.nameOf id
  let available := ", ".intercalate (s.drawing.landmarkNames id)
  s!"'{name}' has: {available}"

/-- The ways in which the tokens `us` are rejected. -/
inductive Rejects [Keyword.Order] (c : Context) (us : List Token) : Rejection → Prop
  | unfinished {wanted : String} (hwanted : IsWanted wanted) : Rejects c us (c.unexpected wanted [])
  | unexpected {t : Token} {rest : List Token} (hts : t :: rest <:+ us) {wanted : String}
      (hkind : t.kind.description ≠ wanted) (hwanted : IsWanted wanted) :
      Rejects c us (c.unexpected wanted (t :: rest))
  | unreadableNumber {t : Token} (ht : t ∈ us) (hkind : t.kind = .number)
      (hnone : Literal.read? t.text.toList = none) :
      Rejects c us ⟨t.position, .expected TokenKind.number.description t.text, none⟩
  | unknownOperator {t : Token} (ht : t ∈ us) (hkind : t.kind = .operator)
      (htext : t.text ∉ ["+", "-", "*", "/"]) :
      Rejects c us ⟨t.position, .expected TokenKind.operator.description t.text, none⟩
  | missingSize {ts : List Token} (hts : ts <:+ us) :
      Rejects c us ⟨c.position ts, .missingSize (Context.quoted ts), none⟩
  | invalidKeyword {t : Token} (ht : t ∈ us) :
      Rejects c us ⟨t.position, .invalidKeyword t.quoted, none⟩
  | unknownKeyword {t : Token} (ht : t ∈ us) (hnone : Keyword.ofText? t.text = none) :
      Rejects c us ⟨t.position, .unknownKeyword t.text,
        (Keyword.suggest? t.text).map suggestion⟩
  | duplicateShape {t : Token} (ht : t ∈ us) {first : Position}
      (hfirst : c.scene.shapeNames.position? t.text = some first) :
      Rejects c us ⟨t.position, .duplicateShape t.text first, none⟩
  | duplicateColor {t : Token} (ht : t ∈ us) {first : Position}
      (hfirst : c.scene.colors.position? t.text = some first) :
      Rejects c us ⟨t.position, .duplicateColor t.text first, none⟩
  | undefinedShape {t : Token} (ht : t ∈ us) (hnone : c.scene.shape? t.text = none) :
      Rejects c us ⟨t.position, .undefinedShape t.text,
        (c.scene.shapeNames.suggest? t.text).map suggestion⟩
  | undefinedColor {t : Token} (ht : t ∈ us) (hnone : c.scene.color? t.text = none) :
      Rejects c us ⟨t.position, .undefinedColor t.text,
        (c.scene.colors.suggest? t.text).map suggestion⟩
  | unknownLandmark {shape dot mark : Token} {rest : List Token} {id : Nat}
      (hts : shape :: dot :: mark :: rest <:+ us) (hshape : shape.kind = .name)
      (hdot : dot.kind = .dot) (hmark : mark.kind = .name)
      (hid : c.scene.shape? shape.text = some id)
      (hnone : c.scene.drawing.landmark? id mark.text = none) :
      Rejects c us ⟨mark.position, .unknownLandmark (c.scene.drawing.nameOf id) mark.text,
        some (landmarkAdvice c.scene id)⟩
  | invalidCoordinate {axis : Token} (haxis : axis ∈ us) :
      Rejects c us ⟨axis.position, .invalidCoordinate axis.text, none⟩
  | outOfRange {ts : List Token} (hts : ts <:+ us) (quantity : Quantity) (requirement : Requirement)
      (value : Float) :
      Rejects c us ⟨c.position ts, .outOfRange quantity requirement value, none⟩
  | divisionByZero {operator : Token} (hoperator : operator ∈ us) :
      Rejects c us ⟨operator.position, .divisionByZero, none⟩

/-- A step of reading that leaves an end of the tokens `us`, or rejects them. -/
structure Within [Keyword.Order] {β : Type} (c : Context) (us : List Token) {ts : List Token}
    (step : Except Rejection (Reading ts β)) : Prop where
  rest : ∀ r, step = .ok r → r.rest <:+ us
  rejection : ∀ e, step = .error e → Rejects c us e

theorem suffix_of_cons {t : Token} {ts : List Token} (hts : t :: ts <:+ us) : ts <:+ us :=
  List.IsSuffix.trans (List.suffix_cons t ts) hts

theorem mem_of_cons {t : Token} {ts : List Token} (hts : t :: ts <:+ us) : t ∈ us :=
  hts.subset List.mem_cons_self

theorem blames_position {ts : List Token} (hts : ts <:+ us) : Blames c.stop us (c.position ts) := by
  cases ts with
  | nil => exact .inl rfl
  | cons t rest => exact .inr ⟨t, mem_of_cons hts, rfl⟩

/-- Tokens are rejected at one of them or at their end. -/
theorem Rejects.blames [Keyword.Order] {e : Rejection} (h : Rejects c us e) :
    Blames c.stop us e.position := by
  cases h with
  | unfinished => exact .inl rfl
  | missingSize hts | outOfRange hts => exact blames_position hts
  | unexpected hts => exact .inr ⟨_, mem_of_cons hts, rfl⟩
  | unreadableNumber ht | unknownOperator ht | invalidKeyword ht | unknownKeyword ht
  | duplicateShape ht | duplicateColor ht | undefinedShape ht | undefinedColor ht
  | invalidCoordinate ht | divisionByZero ht =>
    exact .inr ⟨_, ht, rfl⟩
  | unknownLandmark hts => exact .inr ⟨_, hts.subset (by simp), rfl⟩

namespace Within

variable [Keyword.Order] {β γ : Type} {ts vs : List Token}

theorem ok {r : Reading ts β} (h : r.rest <:+ us) : Within c us (.ok r) where
  rest := by
    rintro _ ⟨⟩
    exact h
  rejection := nofun

theorem error {e : Rejection} (h : Rejects c us e) :
    Within c us (.error e : Except Rejection (Reading ts β)) where
  rest := nofun
  rejection := by
    rintro _ ⟨⟩
    exact h

theorem bind {first : Except Rejection (Reading vs β)}
    {next : Reading vs β → Except Rejection (Reading ts γ)} (hfirst : Within c us first)
    (hnext : ∀ r, first = .ok r → r.rest <:+ us → Within c us (next r)) :
    Within c us (first >>= next) := by
  cases first with
  | error e => exact .error (hfirst.rejection e rfl)
  | ok r => exact hnext r rfl (hfirst.rest r rfl)

end Within

/-! ### Names and single tokens -/

section

variable [Keyword.Order] {ts : List Token}

theorem within_expect {kind : TokenKind} {wanted : String} (hcalled : kind.OnlyCalled wanted)
    (hwanted : IsWanted wanted) (hts : ts <:+ us) : Within c us (expect c kind wanted ts) := by
  cases ts with
  | nil => exact .error (.unfinished hwanted)
  | cons t rest =>
    rw [expect]
    split
    · exact .ok (suffix_of_cons hts)
    · next hkind => exact .error (.unexpected hts (fun h => hkind (hcalled _ h)) hwanted)

theorem within_expectKind (kind : TokenKind) (hts : ts <:+ us) :
    Within c us (expectKind c kind ts) :=
  within_expect kind.onlyCalled_description (.inl ⟨kind, rfl⟩) hts

omit [Keyword.Order] in
/-- A token that was read is one of the tokens. -/
theorem mem_of_expect {kind : TokenKind} {wanted : String} {r : Reading ts Token}
    (hread : expect c kind wanted ts = .ok r) (hts : ts <:+ us) : r.value ∈ us := by
  rw [(expect_eq_ok_iff.mp hread).1] at hts
  exact hts.subset List.mem_cons_self

theorem within_shapeReference (hts : ts <:+ us) : Within c us (shapeReference c ts) := by
  refine (within_expect TokenKind.onlyCalled_shapeName (.inr (by decide)) hts).bind ?_
  intro r hread hrest
  dsimp only
  split
  · exact .ok hrest
  · next hnone => exact .error (.undefinedShape (mem_of_expect hread hts) hnone)

theorem within_newName {β : Type} {table : Declarations β} {wanted : String}
    {duplicate : String → Position → Violation}
    (hduplicate : ∀ t ∈ us, ∀ first, table.position? t.text = some first →
      Rejects c us ⟨t.position, duplicate t.text first, none⟩)
    (hcalled : TokenKind.name.OnlyCalled wanted) (hwanted : IsWanted wanted) (hts : ts <:+ us) :
    Within c us (newName c table wanted duplicate ts) := by
  refine (within_expect hcalled hwanted hts).bind ?_
  intro r hread hrest
  dsimp only
  split
  · next first hfirst => exact .error (hduplicate _ (mem_of_expect hread hts) first hfirst)
  · exact .ok hrest

theorem within_namedPoint (hts : ts <:+ us) : Within c us (namedPoint c ts) := by
  have hcalled : TokenKind.name.OnlyCalled "a point name" := by rintro ⟨⟩ <;> decide
  refine (within_shapeReference hts).bind fun shape hshape h1 => ?_
  refine (within_expectKind _ h1).bind fun next hnext h2 => ?_
  refine (within_expect hcalled (.inr (by decide)) h2).bind fun last hlast h3 => ?_
  obtain ⟨id, r1, _⟩ := shape
  obtain ⟨dot, r2, _⟩ := next
  obtain ⟨mark, r3, _⟩ := last
  have hnamed : IsShape c.scene ts id r1 := shapeReference_eq_ok_iff.mp hshape
  obtain ⟨hr1, hdot⟩ : r1 = dot :: r2 ∧ dot.kind = .dot := expect_eq_ok_iff.mp hnext
  obtain ⟨hr2, hmark⟩ : r2 = mark :: r3 ∧ mark.kind = .name := expect_eq_ok_iff.mp hlast
  obtain ⟨hname, hid⟩ := hnamed
  subst hr1 hr2
  dsimp only
  split
  · exact .ok h3
  · next hnone => exact .error (.unknownLandmark hts hname hdot hmark hid hnone)

/-! ### Numbers and points -/

/-- Reading numbers, points, lists of points and operations from `ts` stays within `us`. An operator
is one of these tokens, too. -/
structure Bounded (c : Context) (us ts : List Token) : Prop where
  number : Within c us (number c ts)
  point : Within c us (point c ts)
  points : Within c us (points c ts)
  operation : ∀ operator ∈ us, operator.kind = .operator → Within c us (operation c operator ts)

omit [Keyword.Order] in
theorem coordinate_error {p : Point Float} {axis : Token} {e : Rejection}
    (h : coordinate p axis = .error e) :
    e = ⟨axis.position, .invalidCoordinate axis.text, none⟩ := by
  unfold coordinate at h
  split at h
  · cases h
  · split at h <;> cases h
    rfl

theorem within_number (hpoint : Within c us (point c ts)) (hts : ts <:+ us) :
    Within c us (number c ts) := by
  cases ts with
  | nil =>
    rw [number]
    exact .error (.unfinished (.inl ⟨.number, rfl⟩))
  | cons t rest =>
    rw [number]
    split
    · next hkind =>
      split
      · exact .ok (suffix_of_cons hts)
      · next hnone => exact .error (.unreadableNumber (mem_of_cons hts) hkind hnone)
    · next hkind =>
      split
      · have hcalled : TokenKind.name.OnlyCalled "a coordinate" := by rintro ⟨⟩ <;> decide
        refine hpoint.bind fun p _ h1 => ?_
        refine (within_expectKind _ h1).bind fun dot _ h2 => ?_
        refine (within_expect hcalled (.inr (by decide)) h2).bind fun axis haxis h3 => ?_
        dsimp only
        cases hx : coordinate p.value axis.value with
        | ok x => exact .ok h3
        | error e =>
          refine .error ?_
          rw [coordinate_error hx]
          exact .invalidCoordinate (mem_of_expect haxis h2)
      · have hne : t.kind.description ≠ TokenKind.number.description :=
          fun h => hkind (TokenKind.onlyCalled_description _ _ h)
        exact .error (.unexpected hts hne (.inl ⟨.number, rfl⟩))

theorem within_point
    (hnext : ∀ vs : List Token, vs.length < ts.length → vs <:+ us → Bounded c us vs)
    (hts : ts <:+ us) : Within c us (point c ts) := by
  cases ts with
  | nil =>
    rw [point]
    exact .error (.unfinished (.inr (by decide)))
  | cons t rest =>
    have hrest : rest <:+ us := suffix_of_cons hts
    rw [point]
    split
    · have hx := hnext rest (by simp) hrest
      refine hx.number.bind fun x _ h1 => ?_
      have hy := hnext x.rest (Nat.lt_succ_of_lt x.shorter) h1
      refine hy.number.bind fun y _ h2 => ?_
      refine (within_expectKind _ h2).bind fun brace _ h3 => ?_
      exact .ok h3
    · exact within_namedPoint hts
    · refine (within_expectKind _ hrest).bind fun operator hoperator h1 => ?_
      have hp := hnext operator.rest (Nat.lt_succ_of_lt operator.shorter) h1
      have hkind : operator.value.kind = .operator := (expect_eq_ok_iff.mp hoperator).2
      refine (hp.operation _ (mem_of_expect hoperator hrest) hkind).bind fun p _ h2 => ?_
      refine (within_expectKind _ h2).bind fun paren _ h3 => ?_
      exact .ok h3
    · have hcalled (kind : TokenKind) : kind.description ≠ "a point" := by cases kind <;> decide
      exact .error (.unexpected hts (hcalled _) (.inr (by decide)))

theorem within_points (hpoint : Within c us (point c ts))
    (hnext : ∀ vs : List Token, vs.length < ts.length → vs <:+ us → Bounded c us vs) :
    Within c us (points c ts) := by
  rw [points]
  refine hpoint.bind fun p _ h1 => ?_
  dsimp only
  split
  · refine (hnext p.rest p.shorter h1).points.bind fun more _ h2 => ?_
    exact .ok h2
  · exact .ok h1

theorem within_operation (hpoint : Within c us (point c ts)) (hpoints : Within c us (points c ts))
    (hnext : ∀ vs : List Token, vs.length < ts.length → vs <:+ us → Bounded c us vs)
    {operator : Token} (hoperator : operator ∈ us) (hkind : operator.kind = .operator) :
    Within c us (operation c operator ts) := by
  have hmultiple : ∀ p : Reading ts (Point Float), p.rest <:+ us → Within c us (number c p.rest) :=
    fun p hp => (hnext p.rest p.shorter hp).number
  rw [operation]
  split
  · exact hpoints.bind fun ps _ h1 => .ok h1
  next hplus =>
  split
  · exact hpoints.bind fun ps _ h1 => .ok h1
  next hminus =>
  split
  · refine hpoint.bind fun p _ h1 => ?_
    exact (hmultiple p h1).bind fun k _ h2 => .ok h2
  next hasterisk =>
  split
  · refine hpoint.bind fun p _ h1 => ?_
    refine (hmultiple p h1).bind fun k _ h2 => ?_
    dsimp only
    split
    · exact .error (.divisionByZero hoperator)
    · exact .ok h2
  next hslash =>
  have hnone : operator.text ∉ ["+", "-", "*", "/"] := by simp [hplus, hminus, hasterisk, hslash]
  exact .error (.unknownOperator hoperator hkind hnone)

theorem bounded (hts : ts <:+ us) : Bounded c us ts := by
  induction hlength : ts.length using Nat.strongRecOn generalizing ts with
  | ind length ih =>
  subst hlength
  have hnext : ∀ vs : List Token, vs.length < ts.length → vs <:+ us → Bounded c us vs :=
    fun vs hlt hvs => ih vs.length hlt hvs rfl
  have hpoint := within_point hnext hts
  have hpoints := within_points hpoint hnext
  exact ⟨within_number hpoint hts, hpoint, hpoints,
    fun _ hoperator hkind => within_operation hpoint hpoints hnext hoperator hkind⟩

/-! ### Values -/

theorem within_positive (quantity : Quantity) (hts : ts <:+ us) :
    Within c us (positive c quantity ts) := by
  refine (bounded hts).number.bind fun x _ h => ?_
  dsimp only
  split
  · exact .error (.outOfRange hts _ _ _)
  · exact .ok h

theorem within_channel (hts : ts <:+ us) : Within c us (channel c ts) := by
  refine (bounded hts).number.bind fun x _ h => ?_
  dsimp only
  split
  · exact .error (.outOfRange hts _ _ _)
  · exact .ok h

theorem within_dimension (quantity : Quantity) (hts : ts <:+ us) :
    Within c us (dimension c quantity ts) := by
  refine (bounded hts).number.bind fun x _ h => ?_
  dsimp only
  split
  · exact .error (.outOfRange hts _ _ _)
  · split
    · exact .error (.outOfRange hts _ _ _)
    · exact .ok h

theorem within_color (hts : ts <:+ us) : Within c us (color c ts) := by
  cases ts with
  | nil => exact .error (.unfinished (.inr (by decide)))
  | cons t rest =>
    have hrest : rest <:+ us := suffix_of_cons hts
    rw [color]
    split
    · refine (within_channel hrest).bind fun red _ h1 => ?_
      refine (within_channel h1).bind fun green _ h2 => ?_
      refine (within_channel h2).bind fun blue _ h3 => ?_
      exact (within_expectKind _ h3).bind fun brace _ h4 => .ok h4
    · split
      · exact .ok hrest
      · next hnone => exact .error (.undefinedColor (mem_of_cons hts) hnone)
    · have hcalled (kind : TokenKind) : kind.description ≠ "a color" := by cases kind <;> decide
      exact .error (.unexpected hts (hcalled _) (.inr (by decide)))

theorem within_canvas (hts : ts <:+ us) : Within c us (canvas c ts) := by
  cases ts with
  | nil => exact .error (.missingSize hts)
  | cons t rest =>
    have hrest : rest <:+ us := suffix_of_cons hts
    rw [canvas]
    split
    · refine (within_dimension _ hrest).bind fun width _ h1 => ?_
      refine (within_dimension _ h1).bind fun height _ h2 => ?_
      dsimp only
      split
      · exact .error (.outOfRange hts _ _ _)
      · exact .ok h2
    · exact .error (.missingSize hts)

/-! ### Shapes -/

theorem within_circle (hts : ts <:+ us) : Within c us (circle c ts) := by
  refine (bounded hts).point.bind fun center _ h1 => ?_
  exact (within_positive _ h1).bind fun radius _ h2 => .ok h2

theorem within_ellipse (hts : ts <:+ us) : Within c us (ellipse c ts) := by
  refine (bounded hts).point.bind fun center _ h1 => ?_
  refine (within_positive _ h1).bind fun major _ h2 => ?_
  refine (within_positive _ h2).bind fun minor _ h3 => ?_
  dsimp only
  split
  · exact .error (.outOfRange h2 _ _ _)
  · exact .ok h3

theorem within_rectangle (hts : ts <:+ us) : Within c us (rectangle c ts) := by
  refine (bounded hts).point.bind fun center _ h1 => ?_
  refine (within_positive _ h1).bind fun width _ h2 => ?_
  exact (within_positive _ h2).bind fun height _ h3 => .ok h3

theorem within_triangle (hts : ts <:+ us) : Within c us (triangle c ts) := by
  refine (bounded hts).point.bind fun v0 _ h1 => ?_
  refine (bounded h1).point.bind fun v1 _ h2 => ?_
  exact (bounded h2).point.bind fun v2 _ h3 => .ok h3

theorem within_shifted (hts : ts <:+ us) : Within c us (shifted c ts) := by
  refine (bounded hts).point.bind fun offset _ h1 => ?_
  exact (within_shapeReference h1).bind fun target _ h2 => .ok h2

theorem within_rotated (hts : ts <:+ us) : Within c us (rotated c ts) := by
  refine (bounded hts).number.bind fun degrees _ h1 => ?_
  refine (bounded h1).point.bind fun pivot _ h2 => ?_
  exact (within_shapeReference h2).bind fun target _ h3 => .ok h3

theorem within_references (hts : ts <:+ us) : Within c us (references c ts) := by
  induction hlength : ts.length using Nat.strongRecOn generalizing ts with
  | ind length ih =>
  subst hlength
  rw [references]
  refine (within_shapeReference hts).bind fun member _ h1 => ?_
  dsimp only
  split
  · exact (ih member.rest.length member.shorter h1 rfl).bind fun more _ h2 => .ok h2
  · exact .ok h1

theorem within_union (hts : ts <:+ us) : Within c us (union c ts) := by
  refine (within_expectKind _ hts).bind fun opening _ h1 => ?_
  refine (within_references h1).bind fun members _ h2 => ?_
  exact (within_expectKind _ h2).bind fun closing _ h3 => .ok h3

theorem within_difference (hts : ts <:+ us) : Within c us (difference c ts) := by
  refine (within_shapeReference hts).bind fun base _ h1 => ?_
  exact (within_shapeReference h1).bind fun subtrahend _ h2 => .ok h2

/-! ### Statements -/

theorem within_shapeDeclaration
    {body : Context → (ts : List Token) → Except Rejection (Reading ts (Form Float))}
    (hbody : ∀ {vs : List Token}, vs <:+ us → Within c us (body c vs)) (hts : ts <:+ us) :
    Within c us (shapeDeclaration c body ts) := by
  have hcalled := TokenKind.onlyCalled_shapeName
  have hname : Within c us (newShapeName c ts) :=
    within_newName (fun _ ht _ => .duplicateShape ht) hcalled (.inr (by decide)) hts
  refine hname.bind fun name _ h1 => ?_
  exact (hbody h1).bind fun form _ h2 => .ok h2

theorem within_colorDeclaration (hts : ts <:+ us) : Within c us (colorDeclaration c ts) := by
  have hcalled : TokenKind.name.OnlyCalled "a color name" := by rintro ⟨⟩ <;> decide
  have hname : Within c us (newColorName c ts) :=
    within_newName (fun _ ht _ => .duplicateColor ht) hcalled (.inr (by decide)) hts
  refine hname.bind fun name _ h1 => ?_
  exact (within_color h1).bind fun value _ h2 => .ok h2

theorem within_fill (hts : ts <:+ us) : Within c us (fill c ts) := by
  refine (within_shapeReference hts).bind fun target _ h1 => ?_
  exact (within_color h1).bind fun value _ h2 => .ok h2

theorem within_body (k : Keyword) (hts : ts <:+ us) : Within c us (body c k ts) := by
  cases k with
  | circle => exact within_shapeDeclaration within_circle hts
  | ellipse => exact within_shapeDeclaration within_ellipse hts
  | rectangle => exact within_shapeDeclaration within_rectangle hts
  | triangle => exact within_shapeDeclaration within_triangle hts
  | shift => exact within_shapeDeclaration within_shifted hts
  | rotate => exact within_shapeDeclaration within_rotated hts
  | union => exact within_shapeDeclaration within_union hts
  | difference => exact within_shapeDeclaration within_difference hts
  | color => exact within_colorDeclaration hts
  | fill => exact within_fill hts

theorem within_statement {t : Token} (hts : t :: ts <:+ us) : Within c us (statement c t ts) := by
  rw [statement]
  split
  · exact .error (.invalidKeyword (mem_of_cons hts))
  · split
    · next hnone => exact .error (.unknownKeyword (mem_of_cons hts) hnone)
    · have hrest : ts <:+ us := suffix_of_cons hts
      exact (within_body _ hrest).bind fun st _ h => .ok h

end

/-! ### The end of the file -/

section Mark

variable {words behind : List Token} {mark : Token}

/-- What is read ends at the first mark, wherever it stands. -/
theorem content_eq_of_mark (hwords : ∀ t ∈ words, t.kind ≠ .endOfFile) (hmark : mark.isEnd = true) :
    content (words ++ mark :: behind) = words := by
  have hmore : ∀ t ∈ words, (!t.isEnd) = true := by
    intro t ht
    simp [Token.isEnd, hwords t ht]
  rw [content, List.takeWhile_append_of_pos hmore, List.takeWhile_cons]
  simp [hmark]

theorem stop_eq_of_mark (hwords : ∀ t ∈ words, t.kind ≠ .endOfFile) (hmark : mark.isEnd = true) :
    stop (words ++ mark :: behind) = mark.position := by
  have hnone : words.find? Token.isEnd = none := by
    rw [List.find?_eq_none]
    intro t ht
    simp [Token.isEnd, hwords t ht]
  rw [stop, List.find?_append, hnone, List.find?_cons_of_pos hmark]
  rfl

end Mark

/-! ### Descriptions -/

theorem result_read [Keyword.Order] (tokens : List Token) :
    (read tokens).result = canvas ⟨.blank 0 0, stop tokens⟩ (content tokens) >>= fun r =>
      (carryOut (stop tokens) (.blank r.value.1 r.value.2) r.rest).result := by
  rw [read]
  cases canvas ⟨.blank 0 0, stop tokens⟩ (content tokens) <;> rfl

/-- A statement that was read can be carried out: its name, if it declares one, was new. -/
theorem IsStatement.applies {l : Limits} {s : Scene} {ts rest : List Token} {st : Statement}
    (h : IsStatement l s ts st rest) : ∃ next, s.apply st = .ok next := by
  cases h with
  | shape _ _ _ hfresh _ _ =>
    rw [Scene.apply, Scene.declareShape, Scene.addShape_of_fresh (Option.map_eq_none_iff.mp hfresh)]
    exact ⟨_, rfl⟩
  | color _ _ _ hfresh _ =>
    rw [Scene.apply, Scene.declareColor, Scene.addColor_of_fresh (Option.map_eq_none_iff.mp hfresh)]
    exact ⟨_, rfl⟩
  | fill _ _ _ _ => exact ⟨_, rfl⟩

theorem Progress.result_eq_error_iff {p : Progress} {e : Rejection} :
    p.result = .error e ↔ p.rejection = some e := by
  unfold result
  cases p.rejection with
  | none => exact ⟨nofun, nofun⟩
  | some r => rw [Except.error.injEq, Option.some.injEq]

theorem carryOut_rejects [Keyword.Order] {stop : Position} {s : Scene} {ts : List Token}
    (hts : ts <:+ us)
    {e : Rejection} (h : (carryOut stop s ts).rejection = some e) :
    Rejects ⟨(carryOut stop s ts).scene, stop⟩ us e := by
  fun_induction carryOut stop s ts with
  | case1 => cases h
  | case2 s t ts r hread =>
    cases h
    exact (within_statement hts).rejection _ hread
  | case3 s t ts next rest hlt hread r happly =>
    obtain ⟨after, hafter⟩ := (statement_eq_ok_iff.mp hread).applies
    cases hafter.symm.trans happly
  | case4 s t ts next rest hlt hread after happly progress ih =>
    exact ih ((within_statement hts).rest _ hread) h

/-- A description is rejected for the tokens before its end, in the scene that has been read so
far. -/
theorem read_rejects [Keyword.Order] {tokens : List Token} {e : Rejection}
    (h : (read tokens).rejection = some e) :
    Rejects ⟨(read tokens).scene, stop tokens⟩ (content tokens) e := by
  have hts : content tokens <:+ content tokens := List.suffix_rfl
  rw [read] at h ⊢
  cases hread : canvas ⟨.blank 0 0, stop tokens⟩ (content tokens) with
  | error r =>
    rw [hread] at h
    cases h
    exact (within_canvas hts).rejection _ hread
  | ok size =>
    rw [hread] at h
    exact carryOut_rejects ((within_canvas hts).rest _ hread) h

end Description

end Easel

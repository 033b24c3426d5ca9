import Mathlib.Data.List.Forall2
import Easel.Proofs.Description.Stepping
import Easel.Proofs.Image.Canvas

/-! Reading does not look at the places of tokens. Two lists of tokens that differ in their places
only are read in step: the steps come to the same values, to scenes that differ in the places of
their declarations only, and to rejections that blame the same token. Which places correspond to
each other is a relation `P`, which is chosen when whole descriptions are compared. -/

namespace Easel

variable {P : Position → Position → Prop}

/-! ### What differs in its places only -/

structure Token.Alike (P : Position → Position → Prop) (t t' : Token) : Prop where
  kind : t.kind = t'.kind
  text : t.text = t'.text
  position : P t.position t'.position

structure Declaration.Alike {β : Type} (P : Position → Position → Prop)
    (d d' : Declaration β) : Prop where
  name : d.name = d'.name
  value : d.value = d'.value
  position : P d.position d'.position

structure Declarations.Alike {β : Type} (P : Position → Position → Prop)
    (t t' : Declarations β) : Prop where
  entries : List.Forall₂ (Declaration.Alike P) t.entries.toList t'.entries.toList
  index : t.index = t'.index

structure Scene.Alike (P : Position → Position → Prop) (s s' : Scene) : Prop where
  width : s.width = s'.width
  height : s.height = s'.height
  drawing : s.drawing = s'.drawing
  shapeNames : s.shapeNames.Alike P s'.shapeNames
  colors : s.colors.Alike P s'.colors
  fills : s.fills = s'.fills

/-- Statements with the same names and values. -/
inductive Statement.Alike (P : Position → Position → Prop) : Statement → Statement → Prop
  | shape {name : String} {p p' : Position} {form : Form Float} (h : P p p') :
      Alike P (.shape name p form) (.shape name p' form)
  | color {name : String} {p p' : Position} {value : Color} (h : P p p') :
      Alike P (.color name p value) (.color name p' value)
  | fill {target : Nat} {value : Color} : Alike P (.fill target value) (.fill target value)

/-- Violations of one kind about the same things. The places of first declarations correspond. -/
def Violation.Alike (P : Position → Position → Prop) : Violation → Violation → Prop
  | .duplicateShape name first, .duplicateShape name' first' => name = name' ∧ P first first'
  | .duplicateColor name first, .duplicateColor name' first' => name = name' ∧ P first first'
  | cause, cause' => cause = cause'

structure Rejection.Alike (P : Position → Position → Prop) (r r' : Rejection) : Prop where
  position : P r.position r'.position
  cause : r.cause.Alike P r'.cause
  help : r.help = r'.help

/-! ### Declared names -/

section

variable {β γ δ ε : Type} {R : β → γ → Prop}

theorem rel_getElem? {bs : List β} {cs : List γ} (h : List.Forall₂ R bs cs) (i : Nat) :
    Option.Rel R bs[i]? cs[i]? := by
  induction h generalizing i with
  | nil => exact .none
  | cons hhead _ ih =>
    cases i with
    | zero => exact .some hhead
    | succ i => exact ih i

theorem rel_map {S : δ → ε → Prop} {f : β → δ} {g : γ → ε} {b : Option β} {c : Option γ}
    (h : Option.Rel R b c) (hfg : ∀ b c, R b c → S (f b) (g c)) :
    Option.Rel S (b.map f) (c.map g) := by
  cases h with
  | none => exact .none
  | some h => exact .some (hfg _ _ h)

theorem rel_cases {b : Option β} {c : Option γ} (h : Option.Rel R b c) :
    (b = none ∧ c = none) ∨ ∃ x y, b = some x ∧ c = some y ∧ R x y := by
  cases h with
  | none => exact .inl ⟨rfl, rfl⟩
  | some h => exact .inr ⟨_, _, rfl, rfl, h⟩

theorem eq_of_rel {b c : Option β} (h : Option.Rel Eq b c) : b = c := by
  cases h with
  | none => rfl
  | some h => rw [h]

end

namespace Declarations.Alike

variable {β : Type} {t t' : Declarations β}

theorem find? (h : t.Alike P t') (name : String) :
    Option.Rel (Declaration.Alike P) (t.find? name) (t'.find? name) := by
  rw [Declarations.find?, Declarations.find?, h.index]
  cases t'.index.lookup name with
  | none => exact .none
  | some i =>
    rw [Option.bind_some, Option.bind_some, ← Array.getElem?_toList, ← Array.getElem?_toList]
    exact rel_getElem? h.entries i

theorem get? (h : t.Alike P t') (name : String) : t.get? name = t'.get? name :=
  eq_of_rel (rel_map (h.find? name) fun _ _ hentry => hentry.value)

theorem position? (h : t.Alike P t') (name : String) :
    Option.Rel P (t.position? name) (t'.position? name) :=
  rel_map (h.find? name) fun _ _ hentry => hentry.position

theorem names (h : t.Alike P t') : t.names = t'.names := by
  rw [Declarations.names, Declarations.names, ← List.forall₂_eq_eq_eq, List.forall₂_map_left_iff,
    List.forall₂_map_right_iff]
  exact h.entries.imp fun _ _ hentry => hentry.name

theorem suggest? (h : t.Alike P t') (name : String) : t.suggest? name = t'.suggest? name := by
  rw [Declarations.suggest?, Declarations.suggest?, h.names]

theorem add (h : t.Alike P t') (name : String) (value : β) {p p' : Position} (hp : P p p') :
    (t.add name value p).Alike P (t'.add name value p') where
  entries := by
    rw [Declarations.add, Declarations.add, Array.toList_push, Array.toList_push]
    exact List.rel_append h.entries (.cons ⟨rfl, rfl, hp⟩ .nil)
  index := by
    have hsize : t.size = t'.size := h.entries.length_eq
    rw [Declarations.add, Declarations.add, hsize, h.index]

end Declarations.Alike

namespace Scene.Alike

variable {s s' : Scene}

theorem shape? (h : s.Alike P s') (name : String) : s.shape? name = s'.shape? name :=
  h.shapeNames.get? name

theorem color? (h : s.Alike P s') (name : String) : s.color? name = s'.color? name :=
  h.colors.get? name

theorem withShape (h : s.Alike P s') (name : String) (form : Form Float) {p p' : Position}
    (hp : P p p') : (s.withShape name form p).Alike P (s'.withShape name form p') := by
  unfold Scene.withShape
  rw [h.drawing]
  exact { h with drawing := rfl, shapeNames := h.shapeNames.add name _ hp }

theorem fill (h : s.Alike P s') (id : Nat) (color : Color) :
    (s.fill id color).Alike P (s'.fill id color) := by
  unfold Scene.fill
  rw [h.drawing, h.fills]
  exact { h with drawing := rfl, fills := rfl }

/-- The pictures of a scene show nothing of the places. -/
theorem samePictures (h : s.Alike P s') : s.SamePictures s' := by
  obtain ⟨width, height, drawing, shapeNames, colors, fills⟩ := s
  obtain ⟨width', height', drawing', shapeNames', colors', fills'⟩ := s'
  obtain ⟨rfl, rfl, rfl, -, -, rfl⟩ := h
  exact ⟨fun _ _ => rfl, fun _ _ _ => rfl⟩

end Scene.Alike

/-! ### Steps -/

namespace Description

/-- Tokens that differ in their places only, one by one. -/
abbrev AreAlike (P : Position → Position → Prop) : List Token → List Token → Prop :=
  List.Forall₂ (Token.Alike P)

structure Context.Alike (P : Position → Position → Prop) (c c' : Context) : Prop where
  scene : c.scene.Alike P c'.scene
  stop : P c.stop c'.stop

/-- Steps of reading that come to related values and leave tokens that are alike, or that are both
rejected. -/
abbrev InStep {β : Type} (P : Position → Position → Prop) (R : β → β → Prop) {ts ts' : List Token}
    (step : Except Rejection (Reading ts β)) (step' : Except Rejection (Reading ts' β)) : Prop :=
  Agree (Rejection.Alike P)
    (fun (r : Reading ts β) (r' : Reading ts' β) => R r.value r'.value ∧ AreAlike P r.rest r'.rest)
    step step'

variable {c c' : Context} {ts ts' : List Token} {β γ : Type}

namespace InStep

variable {R : β → β → Prop} {S : γ → γ → Prop}

theorem ok {r : Reading ts β} {r' : Reading ts' β} (hvalue : R r.value r'.value)
    (hrest : AreAlike P r.rest r'.rest) : InStep P R (.ok r) (.ok r') :=
  Agree.ok ⟨hvalue, hrest⟩

theorem reject {p p' : Position} {cause cause' : Violation} {help : Option String} (hp : P p p')
    (hcause : cause.Alike P cause') :
    InStep P R (.error ⟨p, cause, help⟩ : Except Rejection (Reading ts β))
      (.error ⟨p', cause', help⟩ : Except Rejection (Reading ts' β)) :=
  Agree.error ⟨hp, hcause, rfl⟩

theorem bind {vs vs' : List Token} {first : Except Rejection (Reading vs β)}
    {first' : Except Rejection (Reading vs' β)}
    {next : Reading vs β → Except Rejection (Reading ts γ)}
    {next' : Reading vs' β → Except Rejection (Reading ts' γ)} (hfirst : InStep P R first first')
    (hnext : ∀ r r', R r.value r'.value → AreAlike P r.rest r'.rest →
      InStep P S (next r) (next' r')) :
    InStep P S (first >>= next) (first' >>= next') :=
  Agree.bind hfirst fun r r' h => hnext r r' h.1 h.2

theorem ite {p q : Prop} [Decidable p] [Decidable q] {one two : Except Rejection (Reading ts β)}
    {one' two' : Except Rejection (Reading ts' β)} (hpq : p ↔ q) (hpos : InStep P R one one')
    (hneg : InStep P R two two') :
    InStep P R (if p then one else two) (if q then one' else two') := by
  by_cases h : p
  · rw [if_pos h, if_pos (hpq.mp h)]
    exact hpos
  · rw [if_neg h, if_neg (mt hpq.mpr h)]
    exact hneg

end InStep

/-! ### Names and single tokens -/

theorem Context.Alike.position (hc : c.Alike P c') (hts : AreAlike P ts ts') :
    P (c.position ts) (c'.position ts') := by
  cases hts with
  | nil => exact hc.stop
  | cons ht _ => exact ht.position

theorem quoted_eq (hts : AreAlike P ts ts') : Context.quoted ts = Context.quoted ts' := by
  cases hts with
  | nil => rfl
  | cons ht _ =>
    rw [Context.quoted, Context.quoted, Token.quoted, Token.quoted, ht.kind, ht.text]

theorem kind_head_eq (hts : AreAlike P ts ts') :
    ts.head?.map (·.kind) = ts'.head?.map (·.kind) := by
  cases hts with
  | nil => rfl
  | cons ht _ => exact congrArg some ht.kind

theorem startsPoint_head_eq (hts : AreAlike P ts ts') :
    ts.head?.map (·.kind.startsPoint) = ts'.head?.map (·.kind.startsPoint) := by
  cases hts with
  | nil => rfl
  | cons ht _ => exact congrArg (fun kind => some kind.startsPoint) ht.kind

theorem inStep_unexpected {R : β → β → Prop} (hc : c.Alike P c') (wanted : String)
    (hts : AreAlike P ts ts') :
    InStep P R (.error (c.unexpected wanted ts) : Except Rejection (Reading ts β))
      (.error (c'.unexpected wanted ts') : Except Rejection (Reading ts' β)) := by
  rw [Context.unexpected, Context.unexpected, quoted_eq hts]
  exact .reject (hc.position hts) rfl

theorem inStep_expect (hc : c.Alike P c') (kind : TokenKind) (wanted : String)
    (hts : AreAlike P ts ts') :
    InStep P (Token.Alike P) (expect c kind wanted ts) (expect c' kind wanted ts') := by
  cases hts with
  | nil => exact inStep_unexpected hc wanted .nil
  | cons ht hrest =>
    rw [expect, expect]
    exact .ite (by rw [ht.kind]) (.ok ht hrest) (inStep_unexpected hc wanted (.cons ht hrest))

theorem inStep_shapeReference (hc : c.Alike P c') (hts : AreAlike P ts ts') :
    InStep P Eq (shapeReference c ts) (shapeReference c' ts') := by
  refine (inStep_expect hc _ _ hts).bind fun t t' ht hrest => ?_
  dsimp only
  rw [hc.scene.shape?, hc.scene.shapeNames.suggest?, ht.text]
  cases c'.scene.shape? t'.value.text with
  | some id => exact .ok rfl hrest
  | none => exact .reject ht.position rfl

theorem inStep_newName {table table' : Declarations β} {duplicate : String → Position → Violation}
    (hc : c.Alike P c') (htable : table.Alike P table') (wanted : String)
    (hduplicate : ∀ name p p', P p p' → (duplicate name p).Alike P (duplicate name p'))
    (hts : AreAlike P ts ts') :
    InStep P (Token.Alike P) (newName c table wanted duplicate ts)
      (newName c' table' wanted duplicate ts') := by
  refine (inStep_expect hc _ _ hts).bind fun t t' ht hrest => ?_
  dsimp only
  rw [ht.text]
  rcases rel_cases (htable.position? t'.value.text) with ⟨h, h'⟩ | ⟨first, first', h, h', hfirst⟩
  · rw [h, h']
    exact .ok ht hrest
  · rw [h, h']
    exact .reject ht.position (hduplicate _ _ _ hfirst)

theorem inStep_namedPoint (hc : c.Alike P c') (hts : AreAlike P ts ts') :
    InStep P Eq (namedPoint c ts) (namedPoint c' ts') := by
  refine (inStep_shapeReference hc hts).bind fun shape shape' hshape h1 => ?_
  refine (inStep_expect hc _ _ h1).bind fun dot dot' _ h2 => ?_
  refine (inStep_expect hc _ _ h2).bind fun mark mark' hmark h3 => ?_
  dsimp only
  rw [hc.scene.drawing, hshape, hmark.text]
  cases c'.scene.drawing.landmark? shape'.value mark'.value.text with
  | some p => exact .ok rfl h3
  | none => exact .reject hmark.position rfl

/-! ### Numbers and points -/

/-- Reading numbers, points, lists of points and operations from tokens that are alike. -/
structure Together (P : Position → Position → Prop) (c c' : Context) (ts ts' : List Token) :
    Prop where
  number : InStep P Eq (number c ts) (number c' ts')
  point : InStep P Eq (point c ts) (point c' ts')
  points : InStep P Eq (points c ts) (points c' ts')
  operation : ∀ operator operator', operator.Alike P operator' →
    InStep P Eq (operation c operator ts) (operation c' operator' ts')

theorem agree_coordinate (p : Point Float) {axis axis' : Token} (haxis : axis.Alike P axis') :
    Agree (Rejection.Alike P) Eq (coordinate p axis) (coordinate p axis') := by
  rw [coordinate, coordinate, haxis.text]
  split
  · exact .ok rfl
  · split
    · exact .ok rfl
    · exact .error ⟨haxis.position, rfl, rfl⟩

theorem inStep_number (hc : c.Alike P c') (hpoint : InStep P Eq (point c ts) (point c' ts'))
    (hts : AreAlike P ts ts') : InStep P Eq (number c ts) (number c' ts') := by
  cases hts with
  | nil =>
    rw [number, number]
    exact inStep_unexpected hc _ .nil
  | @cons t t' rest rest' ht hrest =>
    rw [number, number]
    apply InStep.ite (by rw [ht.kind])
    · rw [ht.text]
      cases Literal.read? t'.text.toList with
      | some x => exact .ok rfl hrest
      | none => exact .reject ht.position rfl
    · apply InStep.ite (by rw [ht.kind])
      · refine hpoint.bind fun p p' hp h1 => ?_
        refine (inStep_expect hc _ _ h1).bind fun dot dot' _ h2 => ?_
        refine (inStep_expect hc _ _ h2).bind fun axis axis' haxis h3 => ?_
        dsimp only
        rw [hp]
        exact (agree_coordinate p'.value haxis).bind fun x x' hx => InStep.ok hx h3
      · exact inStep_unexpected hc _ (.cons ht hrest)

theorem inStep_point (hc : c.Alike P c')
    (hnext : ∀ us us' : List Token, us.length < ts.length → AreAlike P us us' →
      Together P c c' us us') (hts : AreAlike P ts ts') :
    InStep P Eq (point c ts) (point c' ts') := by
  cases hts with
  | nil =>
    rw [point, point]
    exact inStep_unexpected hc _ .nil
  | @cons t t' rest rest' ht hrest =>
    rw [point, point, ← ht.kind]
    split
    · refine (hnext rest rest' (by simp) hrest).number.bind fun x x' hx h1 => ?_
      refine (hnext _ _ (Nat.lt_succ_of_lt x.shorter) h1).number.bind fun y y' hy h2 => ?_
      exact (inStep_expect hc _ _ h2).bind fun brace brace' _ h3 =>
        .ok (congrArg₂ Point.mk hx hy) h3
    · exact inStep_namedPoint hc (.cons ht hrest)
    · refine (inStep_expect hc _ _ hrest).bind fun operator operator' hoperator h1 => ?_
      refine ((hnext _ _ (Nat.lt_succ_of_lt operator.shorter) h1).operation _ _ hoperator).bind
        fun p p' hp h2 => ?_
      exact (inStep_expect hc _ _ h2).bind fun paren paren' _ h3 => .ok hp h3
    · exact inStep_unexpected hc _ (.cons ht hrest)

theorem inStep_points (hpoint : InStep P Eq (point c ts) (point c' ts'))
    (hnext : ∀ us us' : List Token, us.length < ts.length → AreAlike P us us' →
      Together P c c' us us') : InStep P Eq (points c ts) (points c' ts') := by
  rw [points, points]
  refine hpoint.bind fun p p' hp h1 => ?_
  have hstarts := startsPoint_head_eq h1
  refine InStep.ite (by rw [hstarts]) ?_ (.ok (congrArg (fun p => (p, [])) hp) h1)
  exact (hnext _ _ p.shorter h1).points.bind fun more more' hmore h2 =>
    .ok (congrArg₂ (fun p ps => (p, ps.1 :: ps.2)) hp hmore) h2

theorem inStep_operation (hpoint : InStep P Eq (point c ts) (point c' ts'))
    (hpoints : InStep P Eq (points c ts) (points c' ts'))
    (hnext : ∀ us us' : List Token, us.length < ts.length → AreAlike P us us' →
      Together P c c' us us') {operator operator' : Token}
    (hoperator : operator.Alike P operator') :
    InStep P Eq (operation c operator ts) (operation c' operator' ts') := by
  rw [operation, operation, ← hoperator.text]
  apply InStep.ite Iff.rfl
  · exact hpoints.bind fun ps ps' hps h1 =>
      .ok (congrArg (fun ps => ps.2.foldl (· + ·) ps.1) hps) h1
  apply InStep.ite Iff.rfl
  · exact hpoints.bind fun ps ps' hps h1 =>
      .ok (congrArg (fun ps => ps.2.foldl (· - ·) ps.1) hps) h1
  apply InStep.ite Iff.rfl
  · refine hpoint.bind fun p p' hp h1 => ?_
    refine (hnext _ _ p.shorter h1).number.bind fun k k' hk h2 => ?_
    exact .ok (congrArg₂ Point.scale hp hk) h2
  apply InStep.ite Iff.rfl
  · refine hpoint.bind fun p p' hp h1 => ?_
    refine (hnext _ _ p.shorter h1).number.bind fun k k' hk h2 => ?_
    dsimp only
    rw [hp, hk]
    exact .ite Iff.rfl (.reject hoperator.position rfl) (.ok rfl h2)
  · exact .reject hoperator.position rfl

theorem together {ts ts' : List Token} (hc : c.Alike P c') (hts : AreAlike P ts ts') :
    Together P c c' ts ts' :=
  have hnext : ∀ us us' : List Token, us.length < ts.length → AreAlike P us us' →
      Together P c c' us us' := fun _ _ _ hus => together hc hus
  have hpoint := inStep_point hc hnext hts
  have hpoints := inStep_points hpoint hnext
  ⟨inStep_number hc hpoint hts, hpoint, hpoints,
    fun _ _ hoperator => inStep_operation hpoint hpoints hnext hoperator⟩
termination_by ts.length

/-! ### Measures, colours and the canvas -/

theorem inStep_positive (hc : c.Alike P c') (quantity : Quantity) (hts : AreAlike P ts ts') :
    InStep P Eq (positive c quantity ts) (positive c' quantity ts') := by
  refine (together hc hts).number.bind fun x x' hx h => ?_
  dsimp only
  rw [hx]
  exact .ite Iff.rfl (.reject (hc.position hts) rfl) (.ok rfl h)

theorem inStep_channel (hc : c.Alike P c') (hts : AreAlike P ts ts') :
    InStep P Eq (channel c ts) (channel c' ts') := by
  refine (together hc hts).number.bind fun x x' hx h => ?_
  dsimp only
  rw [hx]
  exact .ite Iff.rfl (.reject (hc.position hts) rfl) (.ok rfl h)

theorem inStep_dimension (hc : c.Alike P c') (quantity : Quantity) (hts : AreAlike P ts ts') :
    InStep P Eq (dimension c quantity ts) (dimension c' quantity ts') := by
  refine (together hc hts).number.bind fun x x' hx h => ?_
  dsimp only
  rw [hx]
  have hposition := hc.position hts
  exact .ite Iff.rfl (.reject hposition rfl)
    (.ite Iff.rfl (.reject hposition rfl) (.ok rfl h))

theorem inStep_color (hc : c.Alike P c') (hts : AreAlike P ts ts') :
    InStep P Eq (color c ts) (color c' ts') := by
  cases hts with
  | nil => exact inStep_unexpected hc _ .nil
  | @cons t t' rest rest' ht hrest =>
    rw [color, color, ← ht.kind]
    split
    · refine (inStep_channel hc hrest).bind fun red red' hred h1 => ?_
      refine (inStep_channel hc h1).bind fun green green' hgreen h2 => ?_
      refine (inStep_channel hc h2).bind fun blue blue' hblue h3 => ?_
      refine (inStep_expect hc _ _ h3).bind fun brace brace' _ h4 => ?_
      dsimp only
      rw [hred, hgreen, hblue]
      exact .ok rfl h4
    · rw [hc.scene.color?, hc.scene.colors.suggest?, ht.text]
      cases c'.scene.color? t'.text with
      | some value => exact .ok rfl hrest
      | none => exact .reject ht.position rfl
    · exact inStep_unexpected hc _ (.cons ht hrest)

theorem inStep_canvas (hc : c.Alike P c') (hts : AreAlike P ts ts') :
    InStep P Eq (canvas c ts) (canvas c' ts') := by
  cases hts with
  | nil => exact .reject hc.stop rfl
  | @cons t t' rest rest' ht hrest =>
    rw [canvas, canvas, Token.quoted, Token.quoted, ht.kind, ht.text]
    apply InStep.ite Iff.rfl
    · refine (inStep_dimension hc _ hrest).bind fun width width' hwidth h1 => ?_
      refine (inStep_dimension hc _ h1).bind fun height height' hheight h2 => ?_
      dsimp only
      rw [hwidth, hheight]
      exact .ite Iff.rfl (.reject ht.position rfl) (.ok rfl h2)
    · exact .reject ht.position rfl

/-! ### Shapes -/

theorem inStep_circle (hc : c.Alike P c') (hts : AreAlike P ts ts') :
    InStep P Eq (circle c ts) (circle c' ts') := by
  refine (together hc hts).point.bind fun center center' hcenter h1 => ?_
  exact (inStep_positive hc _ h1).bind fun radius radius' hradius h2 =>
    .ok (congrArg₂ Form.circle hcenter hradius) h2

theorem inStep_ellipse (hc : c.Alike P c') (hts : AreAlike P ts ts') :
    InStep P Eq (ellipse c ts) (ellipse c' ts') := by
  refine (together hc hts).point.bind fun center center' hcenter h1 => ?_
  refine (inStep_positive hc _ h1).bind fun major major' hmajor h2 => ?_
  refine (inStep_positive hc _ h2).bind fun minor minor' hminor h3 => ?_
  dsimp only
  rw [hcenter, hmajor, hminor]
  exact .ite Iff.rfl (.reject (hc.position h2) rfl) (.ok rfl h3)

theorem inStep_rectangle (hc : c.Alike P c') (hts : AreAlike P ts ts') :
    InStep P Eq (rectangle c ts) (rectangle c' ts') := by
  refine (together hc hts).point.bind fun center center' hcenter h1 => ?_
  refine (inStep_positive hc _ h1).bind fun width width' hwidth h2 => ?_
  refine (inStep_positive hc _ h2).bind fun height height' hheight h3 => ?_
  rw [hcenter, hwidth, hheight]
  exact .ok rfl h3

theorem inStep_triangle (hc : c.Alike P c') (hts : AreAlike P ts ts') :
    InStep P Eq (triangle c ts) (triangle c' ts') := by
  refine (together hc hts).point.bind fun v0 v0' hv0 h1 => ?_
  refine (together hc h1).point.bind fun v1 v1' hv1 h2 => ?_
  refine (together hc h2).point.bind fun v2 v2' hv2 h3 => ?_
  rw [hv0, hv1, hv2]
  exact .ok rfl h3

theorem inStep_shifted (hc : c.Alike P c') (hts : AreAlike P ts ts') :
    InStep P Eq (shifted c ts) (shifted c' ts') := by
  refine (together hc hts).point.bind fun offset offset' hoffset h1 => ?_
  exact (inStep_shapeReference hc h1).bind fun target target' htarget h2 =>
    .ok (congrArg₂ Form.shifted hoffset htarget) h2

theorem inStep_rotated (hc : c.Alike P c') (hts : AreAlike P ts ts') :
    InStep P Eq (rotated c ts) (rotated c' ts') := by
  refine (together hc hts).number.bind fun degrees degrees' hdegrees h1 => ?_
  refine (together hc h1).point.bind fun pivot pivot' hpivot h2 => ?_
  refine (inStep_shapeReference hc h2).bind fun target target' htarget h3 => ?_
  rw [hdegrees, hpivot, htarget]
  exact .ok rfl h3

theorem inStep_references {ts ts' : List Token} (hc : c.Alike P c') (hts : AreAlike P ts ts') :
    InStep P Eq (references c ts) (references c' ts') := by
  rw [references, references]
  refine (inStep_shapeReference hc hts).bind fun member member' hmember h1 => ?_
  have hshorter := member.shorter
  dsimp only
  rw [hmember, kind_head_eq h1]
  apply InStep.ite Iff.rfl
  · exact (inStep_references hc h1).bind fun more more' hmore h2 =>
      .ok (congrArg (List.cons member'.value) hmore) h2
  · exact .ok rfl h1
termination_by ts.length

theorem inStep_union (hc : c.Alike P c') (hts : AreAlike P ts ts') :
    InStep P Eq (union c ts) (union c' ts') := by
  refine (inStep_expect hc _ _ hts).bind fun opening opening' _ h1 => ?_
  refine (inStep_references hc h1).bind fun members members' hmembers h2 => ?_
  exact (inStep_expect hc _ _ h2).bind fun closing closing' _ h3 =>
    .ok (congrArg Form.union hmembers) h3

theorem inStep_difference (hc : c.Alike P c') (hts : AreAlike P ts ts') :
    InStep P Eq (difference c ts) (difference c' ts') := by
  refine (inStep_shapeReference hc hts).bind fun base base' hbase h1 => ?_
  exact (inStep_shapeReference hc h1).bind fun subtrahend subtrahend' hsubtrahend h2 =>
    .ok (congrArg₂ Form.difference hbase hsubtrahend) h2

/-! ### Statements -/

theorem inStep_shapeDeclaration (hc : c.Alike P c')
    {body : Context → (ts : List Token) → Except Rejection (Reading ts (Form Float))}
    (hbody : ∀ {us us' : List Token}, AreAlike P us us' →
      InStep P Eq (body c us) (body c' us')) (hts : AreAlike P ts ts') :
    InStep P (Statement.Alike P) (shapeDeclaration c body ts) (shapeDeclaration c' body ts') := by
  refine (inStep_newName hc hc.scene.shapeNames _ (fun _ _ _ => And.intro rfl) hts).bind
    fun name name' hname h1 => ?_
  refine (hbody h1).bind fun form form' hform h2 => ?_
  rw [hform, hname.text]
  exact .ok (.shape hname.position) h2

theorem inStep_colorDeclaration (hc : c.Alike P c') (hts : AreAlike P ts ts') :
    InStep P (Statement.Alike P) (colorDeclaration c ts) (colorDeclaration c' ts') := by
  refine (inStep_newName hc hc.scene.colors _ (fun _ _ _ => And.intro rfl) hts).bind
    fun name name' hname h1 => ?_
  refine (inStep_color hc h1).bind fun value value' hvalue h2 => ?_
  rw [hvalue, hname.text]
  exact .ok (.color hname.position) h2

theorem inStep_fill (hc : c.Alike P c') (hts : AreAlike P ts ts') :
    InStep P (Statement.Alike P) (fill c ts) (fill c' ts') := by
  refine (inStep_shapeReference hc hts).bind fun target target' htarget h1 => ?_
  refine (inStep_color hc h1).bind fun value value' hvalue h2 => ?_
  rw [htarget, hvalue]
  exact .ok .fill h2

theorem inStep_body (hc : c.Alike P c') (k : Keyword) (hts : AreAlike P ts ts') :
    InStep P (Statement.Alike P) (body c k ts) (body c' k ts') := by
  cases k with
  | circle => exact inStep_shapeDeclaration hc (inStep_circle hc) hts
  | ellipse => exact inStep_shapeDeclaration hc (inStep_ellipse hc) hts
  | rectangle => exact inStep_shapeDeclaration hc (inStep_rectangle hc) hts
  | triangle => exact inStep_shapeDeclaration hc (inStep_triangle hc) hts
  | shift => exact inStep_shapeDeclaration hc (inStep_shifted hc) hts
  | rotate => exact inStep_shapeDeclaration hc (inStep_rotated hc) hts
  | union => exact inStep_shapeDeclaration hc (inStep_union hc) hts
  | difference => exact inStep_shapeDeclaration hc (inStep_difference hc) hts
  | color => exact inStep_colorDeclaration hc hts
  | fill => exact inStep_fill hc hts

theorem inStep_statement [Keyword.Order] (hc : c.Alike P c') {t t' : Token} (ht : t.Alike P t')
    (hts : AreAlike P ts ts') :
    InStep P (Statement.Alike P) (statement c t ts) (statement c' t' ts') := by
  rw [statement, statement, Token.quoted, Token.quoted, ht.kind, ht.text]
  apply InStep.ite Iff.rfl
  · exact .reject ht.position rfl
  · cases Keyword.ofText? t'.text with
    | none => exact .reject ht.position rfl
    | some k => exact (inStep_body hc k hts).bind fun r r' hvalue hrest => .ok hvalue hrest

/-! ### Descriptions -/

variable {s s' : Scene}

/-- Statements that differ in a place only come to scenes that differ in places only, or are refused
for the same reason. -/
theorem agree_apply (hs : s.Alike P s') {st st' : Statement} (hst : st.Alike P st') :
    Agree (Rejection.Alike P) (Scene.Alike P) (s.apply st) (s'.apply st') := by
  cases hst with
  | @shape name p p' form hp =>
    rw [Scene.apply, Scene.apply, Scene.declareShape, Scene.declareShape]
    rcases rel_cases (hs.shapeNames.find? name) with ⟨h, h'⟩ | ⟨first, first', h, h', hfirst⟩
    · rw [Scene.addShape_of_fresh h, Scene.addShape_of_fresh h']
      exact .ok (hs.withShape name form hp)
    · rw [Scene.addShape_of_taken h, Scene.addShape_of_taken h']
      exact .error ⟨hp, ⟨rfl, hfirst.position⟩, rfl⟩
  | @color name p p' value hp =>
    rw [Scene.apply, Scene.apply, Scene.declareColor, Scene.declareColor]
    rcases rel_cases (hs.colors.find? name) with ⟨h, h'⟩ | ⟨first, first', h, h', hfirst⟩
    · rw [Scene.addColor_of_fresh h, Scene.addColor_of_fresh h']
      exact .ok { hs with colors := hs.colors.add name value hp }
    · rw [Scene.addColor_of_taken h, Scene.addColor_of_taken h']
      exact .error ⟨hp, ⟨rfl, hfirst.position⟩, rfl⟩
  | fill => exact .ok (hs.fill _ _)

theorem result_carryOut [Keyword.Order] (stop : Position) (s : Scene) (t : Token)
    (ts : List Token) :
    (carryOut stop s (t :: ts)).result = statement ⟨s, stop⟩ t ts >>= fun r =>
      s.apply r.value >>= fun next => (carryOut stop next r.rest).result := by
  rw [carryOut]
  cases statement ⟨s, stop⟩ t ts with
  | error e => rfl
  | ok r =>
    dsimp only
    cases happly : s.apply r.value <;> simp only [happly, bind, Except.bind] <;> rfl

theorem agree_carryOut [Keyword.Order] {stop stop' : Position} {s s' : Scene} {ts ts' : List Token}
    (hstop : P stop stop') (hs : s.Alike P s') (hts : AreAlike P ts ts') :
    Agree (Rejection.Alike P) (Scene.Alike P) (carryOut stop s ts).result
      (carryOut stop' s' ts').result := by
  induction hlength : ts.length using Nat.strongRecOn generalizing s s' ts ts' with
  | ind length ih =>
  subst hlength
  cases hts with
  | nil =>
    rw [carryOut, carryOut]
    exact .ok hs
  | @cons t t' rest rest' ht hrest =>
    rw [result_carryOut, result_carryOut]
    refine Agree.bind (inStep_statement ⟨hs, hstop⟩ ht hrest) fun r r' h => ?_
    refine (agree_apply hs h.1).bind fun next next' hnext => ?_
    have hshorter : r.rest.length < (t :: rest).length := by
      have hrest := r.shorter
      rw [List.length_cons]
      omega
    exact ih r.rest.length hshorter hnext h.2 rfl

end Description

theorem Scene.alike_blank (width height : Nat) :
    (Scene.blank width height).Alike P (.blank width height) :=
  ⟨rfl, rfl, rfl, ⟨.nil, rfl⟩, ⟨.nil, rfl⟩, rfl⟩

namespace Description

theorem agree_read [Keyword.Order] {tokens tokens' : List Token}
    (hstop : P (stop tokens) (stop tokens'))
    (hcontent : AreAlike P (content tokens) (content tokens')) :
    Agree (Rejection.Alike P) (Scene.Alike P) (read tokens).result (read tokens').result := by
  rw [result_read, result_read]
  refine Agree.bind (inStep_canvas ⟨Scene.alike_blank 0 0, hstop⟩ hcontent) fun r r' h => ?_
  rw [h.1]
  exact agree_carryOut hstop (Scene.alike_blank _ _) h.2

/-! ### The same token of two lists -/

/-- The places of the tokens with one number in two lists. -/
def SamePlace (ts ts' : List Token) (p p' : Position) : Prop :=
  ∃ i : Nat, ts[i]?.map Token.position = some p ∧ ts'[i]?.map Token.position = some p'

theorem areAlike_append {ts ts' : List Token} (h : ts.map Token.lexeme = ts'.map Token.lexeme)
    (us us' : List Token) : AreAlike (SamePlace (ts ++ us) (ts' ++ us')) ts ts' := by
  have hlength : ts.length = ts'.length := by
    simpa using congrArg List.length h
  refine List.forall₂_iff_get.mpr ⟨hlength, fun i hi hi' => ?_⟩
  have hlexeme : ts[i].lexeme = ts'[i].lexeme := by
    have hget := congrArg (·[i]?) h
    simpa [hi, hi'] using hget
  refine ⟨congrArg Prod.fst hlexeme, congrArg Prod.snd hlexeme, i, ?_, ?_⟩
  · simp [List.getElem?_append_left hi, hi]
  · simp [List.getElem?_append_left hi', hi']

theorem lexeme_content (tokens : List Token) :
    (content tokens).map Token.lexeme =
      (tokens.map Token.lexeme).takeWhile fun l => !decide (l.1 = .endOfFile) := by
  rw [List.takeWhile_map]
  rfl

end Description

namespace Scene

open Description Indexed

/-- What is read from tokens does not depend on their places, nor on the name of the file. Two lists
of tokens with the same kinds and texts describe scenes that differ in the places of the
declarations only, with the same pictures, or both are rejected for the same reason, at the same
token, with the same advice. -/
theorem build?_alike [Keyword.Order] {tokens tokens' : List Token}
    (h : tokens.map Token.lexeme = tokens'.map Token.lexeme) (file file' : String) :
    (∃ s s', build? file tokens = .ok s ∧ build? file' tokens' = .ok s' ∧
      s.Alike (SamePlace (closed tokens) (closed tokens')) s' ∧ s.SamePictures s') ∨
    ∃ r r' : Rejection, build? file tokens = .error (r.diagnostic file) ∧
      build? file' tokens' = .error (r'.diagnostic file') ∧
      r.Alike (SamePlace (closed tokens) (closed tokens')) r' := by
  obtain ⟨mark, behind, hclosed, -, hstop⟩ := exists_mark tokens
  obtain ⟨mark', behind', hclosed', -, hstop'⟩ := exists_mark tokens'
  have hlexemes : (content tokens).map Token.lexeme = (content tokens').map Token.lexeme := by
    rw [lexeme_content, lexeme_content, h]
  have hcontent : AreAlike (SamePlace (closed tokens) (closed tokens')) (content tokens)
      (content tokens') := by
    rw [hclosed, hclosed']
    exact areAlike_append hlexemes _ _
  have hlength : (content tokens).length = (content tokens').length := hcontent.length_eq
  have hstops : SamePlace (closed tokens) (closed tokens') (stop tokens) (stop tokens') := by
    refine ⟨(content tokens).length, ?_, ?_⟩
    · rw [hclosed, ← hstop]
      simp
    · rw [hclosed', ← hstop', hlength]
      simp
  rw [build?, build?, ofTokens?, ofTokens?]
  have hread := agree_read hstops hcontent
  generalize (read tokens).result = result, (read tokens').result = result' at hread
  cases hread with
  | ok hs => exact .inl ⟨_, _, rfl, rfl, hs, hs.samePictures⟩
  | error hr => exact .inr ⟨_, _, rfl, rfl, hr⟩

/-- Two discs with one name, in the given places. -/
def twoDiscs (place : Nat → Position) : List Token :=
  [(TokenKind.name, "size"), (.number, "1"), (.number, "1"), (.name, "circ"), (.name, "disc"),
    (.openBrace, "\x7b"), (.number, "0"), (.number, "0"), (.closeBrace, "\x7d"), (.number, "1"),
    (.name, "circ"), (.name, "disc")].zipIdx.map fun (l, i) => ⟨l.1, l.2, place i⟩

theorem twoDiscs_alike :
    ∃ r r' : Rejection,
      build? "discs.paint" (twoDiscs fun _ => .nowhere) = .error (r.diagnostic "discs.paint") ∧
      build? "lines.paint" (twoDiscs fun i => ⟨i, 1, i, 1⟩) = .error (r'.diagnostic "lines.paint") ∧
      r.Alike (SamePlace (closed (twoDiscs fun _ => .nowhere))
        (closed (twoDiscs fun i => ⟨i, 1, i, 1⟩))) r' := by
  have hrejected : (build? "discs.paint" (twoDiscs fun _ => .nowhere)).isOk = false := by
    decide +kernel
  have hlexemes : (twoDiscs fun _ => .nowhere).map Token.lexeme =
      (twoDiscs fun i => ⟨i, 1, i, 1⟩).map Token.lexeme := by
    decide
  rcases build?_alike hlexemes "discs.paint" "lines.paint" with ⟨s, s', hs, -⟩ | hboth
  · rw [hs] at hrejected
    cases hrejected
  · exact hboth

end Scene

end Easel

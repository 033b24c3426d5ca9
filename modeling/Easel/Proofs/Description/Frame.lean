import Easel.Proofs.Description.Instructions
import Easel.Proofs.Description.Mentions
import Easel.Proofs.Description.Stateful
import Easel.Proofs.Description.Stepping

/-! Reading values does not touch the scene. Each act that reads one does what the walk over the
same tokens does that is told the scene once and for all, and the scene that it leaves behind is the
one it has found. A name that is new when its declaration begins is therefore still new at its end,
and what stands in between is looked up in a scene that does not have the name. -/

namespace Easel.Stateful

open Description

variable {β γ : Type} {s : Scene} {tokens : Array Token} {i : Nat}

/-- An act that leaves the scene as it is, whether it comes to a value or stops. -/
def Keeps (act : Act β) : Prop :=
  ∀ (tokens : Array Token) (state : State), (act tokens state).2.scene = state.scene

/-- Where the scene is `s`, an act comes to a value and to a scene in the relation `R` to the value
that a walk comes to. If the walk stops, so does the act, and the scene is still `s`. -/
structure Matches (s : Scene) (R : γ → β → Scene → Prop) (act : Act β) (walk : Indexed.Walk γ) :
    Prop where
  ok : ∀ {tokens : Array Token} {i j : Nat} {c : γ}, walk tokens i = .ok (c, j) →
    ∃ b next, R c b next ∧ act tokens ⟨i, s⟩ = (.ok b, ⟨j, next⟩)
  error : ∀ {tokens : Array Token} {i : Nat} {h : Indexed.Halt}, walk tokens i = .error h →
    ∃ j, act tokens ⟨i, s⟩ = (.error (.halted h), ⟨j, s⟩)

/-- Where the scene is `s`, an act does what a walk does, and the scene stays. -/
abbrev Mirrors (s : Scene) (act : Act β) (walk : Indexed.Walk β) : Prop :=
  Matches s (fun c b next => b = c ∧ next = s) act walk

/-- Where the scene is `s`, an act carries out the statement that a walk reads. -/
abbrev Performs (s : Scene) (act : Act Unit) (walk : Indexed.Walk Statement) : Prop :=
  Matches s (fun st _ next => s.apply st = .ok next) act walk

section Bind

variable {act : Act β} {next : β → Act γ} {state after : State}

theorem bind_eq_of_ok {b : β} (h : act tokens state = (.ok b, after)) :
    (act >>= next) tokens state = next b tokens after := by
  change act.andThen next tokens state = _
  rw [Act.andThen, h]

theorem bind_eq_of_error {e : Stop} (h : act tokens state = (.error e, after)) :
    (act >>= next) tokens state = (.error e, after) := by
  change act.andThen next tokens state = _
  rw [Act.andThen, h]

end Bind

namespace Matches

variable {δ : Type} {R : γ → β → Scene → Prop} {act act' : Act β} {walk walk' : Indexed.Walk γ}

theorem halt (h : Indexed.Halt) : Matches s R (stop (.halted h)) (Indexed.halt h) where
  ok := nofun
  error := by
    rintro tokens i _ ⟨⟩
    exact ⟨i, rfl⟩

theorem reject (r : Rejection) : Matches s R (Stateful.reject r) (Indexed.reject r) :=
  halt (.rejected r)

/-- When all has been read, the act comes to its value and its scene. -/
theorem last {b : β} {c : γ} {next : Scene} (h : R c b next)
    (hact : ∀ (tokens : Array Token) (i : Nat), act tokens ⟨i, s⟩ = (.ok b, ⟨i, next⟩)) :
    Matches s R act (Pure.pure c) where
  ok := by
    rintro tokens i _ _ ⟨⟩
    exact ⟨b, next, h, hact tokens i⟩
  error := nofun

theorem pure (b : β) : Mirrors s (Pure.pure b) (Pure.pure b) :=
  last ⟨rfl, rfl⟩ fun _ _ => rfl

/-- An act may look at the scene. -/
theorem current {next : Scene → Act β} (h : Matches s R (next s) walk) :
    Matches s R (currentScene >>= next) walk :=
  ⟨fun hc => h.ok hc, fun he => h.error he⟩

theorem ite {p : Prop} [Decidable p] (hpos : Matches s R act walk)
    (hneg : Matches s R act' walk') :
    Matches s R (if p then act else act') (if p then walk else walk') := by
  split
  · exact hpos
  · exact hneg

/-- What leaves the scene as it is may stand in front. -/
theorem after {first : Act δ} {lead : Indexed.Walk δ} {next : δ → Act β}
    {cont : δ → Indexed.Walk γ} (hfirst : Mirrors s first lead)
    (hnext : ∀ {tokens : Array Token} {i j : Nat} {d : δ}, lead tokens i = .ok (d, j) →
      Matches s R (next d) (cont d)) :
    Matches s R (first >>= next) (lead >>= cont) where
  ok := by
    intro tokens i k c hc
    cases hlead : lead tokens i with
    | error h =>
      rw [Indexed.bind_eq_of_error hlead] at hc
      cases hc
    | ok r =>
      obtain ⟨_, _, ⟨rfl, rfl⟩, hact⟩ := hfirst.ok hlead
      rw [Indexed.bind_eq_of_ok hlead] at hc
      rw [bind_eq_of_ok hact]
      exact (hnext hlead).ok hc
  error := by
    intro tokens i h hh
    cases hlead : lead tokens i with
    | error h' =>
      rw [Indexed.bind_eq_of_error hlead] at hh
      cases hh
      obtain ⟨j, hact⟩ := hfirst.error hlead
      exact ⟨j, bind_eq_of_error hact⟩
    | ok r =>
      obtain ⟨_, _, ⟨rfl, rfl⟩, hact⟩ := hfirst.ok hlead
      rw [Indexed.bind_eq_of_ok hlead] at hh
      rw [bind_eq_of_ok hact]
      exact (hnext hlead).error hh

end Matches

namespace Mirrors

variable {act : Act β} {walk : Indexed.Walk β}

theorem keeps {walk : Scene → Indexed.Walk β} (h : ∀ s, Mirrors s act (walk s)) : Keeps act := by
  rintro tokens ⟨i, s⟩
  cases hwalk : walk s tokens i with
  | ok r =>
    obtain ⟨_, _, ⟨-, rfl⟩, hact⟩ := (h s).ok hwalk
    rw [hact]
  | error e =>
    obtain ⟨j, hact⟩ := (h s).error hwalk
    rw [hact]

/-- The act gives the token that the walk gives. -/
theorem of_eq (hok : ∀ (tokens : Array Token) (i : Nat),
    act tokens ⟨i, s⟩ = match walk tokens i with
      | .ok (b, j) => (.ok b, ⟨j, s⟩)
      | .error h => (.error (.halted h), ⟨i, s⟩)) : Mirrors s act walk where
  ok := by
    intro tokens i j b hb
    exact ⟨b, s, ⟨rfl, rfl⟩, by rw [hok, hb]⟩
  error := by
    intro tokens i h hh
    exact ⟨i, by rw [hok, hh]⟩

theorem bind {next : β → Act γ} {cont : β → Indexed.Walk γ} (hact : Mirrors s act walk)
    (hnext : ∀ b, Mirrors s (next b) (cont b)) : Mirrors s (act >>= next) (walk >>= cont) :=
  .after hact fun _ => hnext _

end Mirrors

/-! ### Names and single tokens -/

theorem mirrors_peek : Mirrors s peek Indexed.peek := by
  refine .of_eq fun tokens i => ?_
  rw [peek, Indexed.peek]
  cases tokens[i]? <;> rfl

theorem mirrors_advance : Mirrors s advance Indexed.advance := by
  refine .of_eq fun tokens i => ?_
  rw [advance, Indexed.advance]
  cases tokens[i]? with
  | none => rfl
  | some t => cases hend : t.isEnd <;> simp [hend]

theorem mirrors_unexpected (wanted : String) :
    Mirrors s (unexpected wanted : Act β) (Indexed.unexpected wanted) :=
  mirrors_peek.bind fun _ => .reject _

theorem mirrors_expect (kind : TokenKind) (wanted : String) :
    Mirrors s (expect kind wanted) (Indexed.expect kind wanted) :=
  mirrors_peek.bind fun _ => .ite mirrors_advance (mirrors_unexpected wanted)

theorem mirrors_expectKind (kind : TokenKind) :
    Mirrors s (expectKind kind) (Indexed.expectKind kind) :=
  mirrors_expect kind kind.description

theorem mirrors_shapeReference : Mirrors s shapeReference (Indexed.shapeReference s) := by
  refine (mirrors_expect _ _).bind fun t => .current ?_
  cases s.shape? t.text with
  | none => exact .reject _
  | some id => exact .pure id

theorem mirrors_newName (table : Scene → Declarations γ) (wanted : String)
    (duplicate : String → Position → Violation) :
    Mirrors s (newName table wanted duplicate) (Indexed.newName (table s) wanted duplicate) := by
  refine (mirrors_expect _ _).bind fun t => .current ?_
  cases (table s).position? t.text with
  | none => exact .pure t
  | some first => exact .reject _

theorem mirrors_newShapeName :
    Mirrors s newShapeName (Indexed.newName s.shapeNames "a shape name" .duplicateShape) :=
  mirrors_newName Scene.shapeNames _ _

theorem mirrors_newColorName :
    Mirrors s newColorName (Indexed.newName s.colors "a color name" .duplicateColor) :=
  mirrors_newName Scene.colors _ _

theorem mirrors_namedPoint : Mirrors s namedPoint (Indexed.namedPoint s) := by
  refine mirrors_shapeReference.bind fun id => ?_
  refine (mirrors_expectKind _).bind fun _ => ?_
  refine (mirrors_expect _ _).bind fun landmark => .current ?_
  cases s.drawing.landmark? id landmark.text with
  | none => exact .reject _
  | some p => exact .pure p

theorem mirrors_coordinate (p : Point Float) (axis : Token) :
    Mirrors s (coordinate p axis) (Indexed.coordinate p axis) := by
  rw [coordinate, Indexed.coordinate]
  cases Description.coordinate p axis with
  | error r => exact .reject r
  | ok x => exact .pure x

theorem mirrors_parenthesized {operands : Token → Act β} {walk : Token → Indexed.Walk β}
    (h : ∀ operator, Mirrors s (operands operator) (walk operator)) :
    Mirrors s (parenthesized operands) (do
      let _ ← Indexed.expectKind .openParen
      let operator ← Indexed.expectKind .operator
      let b ← walk operator
      let _ ← Indexed.expectKind .closeParen
      return b) := by
  refine (mirrors_expectKind _).bind fun _ => (mirrors_expectKind _).bind fun operator => ?_
  exact (h operator).bind fun b => (mirrors_expectKind _).bind fun _ => .pure b

/-! ### Numbers and points -/

/-- The acts of at most `steps` steps that read numbers and points, and the walks that they
mirror. -/
structure Reflects (s : Scene) (steps : Nat) : Prop where
  number : Mirrors s (number steps) (Indexed.number s steps)
  point : Mirrors s (point steps) (Indexed.point s steps)
  operation : ∀ operator : Token,
    Mirrors s (operation operator steps) (Indexed.operation s operator steps)
  points : Mirrors s (points steps) (Indexed.points s steps)

variable {steps : Nat}

theorem mirrors_number (h : Reflects s steps) :
    Mirrors s (number (steps + 1)) (Indexed.number s (steps + 1)) := by
  rw [number, Indexed.number]
  refine mirrors_peek.bind fun t => .ite ?_ (.ite ?_ (mirrors_unexpected _))
  · refine mirrors_advance.bind fun _ => ?_
    cases Literal.read? t.text.toList with
    | none => exact .reject _
    | some x => exact .pure x
  · refine h.point.bind fun p => (mirrors_expectKind _).bind fun _ => ?_
    exact (mirrors_expect _ _).bind fun axis => mirrors_coordinate p axis

theorem mirrors_point (h : Reflects s steps) :
    Mirrors s (point (steps + 1)) (Indexed.point s (steps + 1)) := by
  rw [point, Indexed.point]
  refine mirrors_peek.bind fun t => ?_
  cases t.kind with
  | openBrace =>
    refine mirrors_advance.bind fun _ => h.number.bind fun x => h.number.bind fun y => ?_
    exact (mirrors_expectKind _).bind fun _ => .pure _
  | name => exact mirrors_namedPoint
  | openParen => exact mirrors_parenthesized h.operation
  | _ => exact mirrors_unexpected _

theorem mirrors_operation (h : Reflects s steps) (operator : Token) :
    Mirrors s (operation operator (steps + 1)) (Indexed.operation s operator (steps + 1)) := by
  rw [operation, Indexed.operation]
  refine .ite ?_ (.ite ?_ (.ite ?_ (.ite ?_ (.reject _))))
  · exact h.points.bind fun _ => .pure _
  · exact h.points.bind fun _ => .pure _
  · exact h.point.bind fun p => h.number.bind fun k => .pure _
  · exact h.point.bind fun p => h.number.bind fun k => .ite (.reject _) (.pure _)

theorem mirrors_points (h : Reflects s steps) :
    Mirrors s (points (steps + 1)) (Indexed.points s (steps + 1)) := by
  rw [points, Indexed.points]
  refine h.point.bind fun p => mirrors_peek.bind fun t => .ite ?_ (.pure _)
  exact h.points.bind fun _ => .pure _

theorem reflects (s : Scene) (steps : Nat) : Reflects s steps := by
  induction steps with
  | zero =>
    exact ⟨.halt .outOfSteps, .halt .outOfSteps, fun _ => .halt .outOfSteps, .halt .outOfSteps⟩
  | succ steps ih =>
    exact ⟨mirrors_number ih, mirrors_point ih, mirrors_operation ih, mirrors_points ih⟩

theorem mirrors_pointExpression : Mirrors s (pointExpression steps) (do
    let _ ← Indexed.expectKind .openParen
    let operator ← Indexed.expectKind .operator
    let p ← Indexed.operation s operator steps
    let _ ← Indexed.expectKind .closeParen
    return p) :=
  mirrors_parenthesized (reflects s steps).operation

theorem mirrors_positive (quantity : Quantity) :
    Mirrors s (positive quantity steps) (Indexed.positive s quantity steps) :=
  mirrors_peek.bind fun _ => (reflects s steps).number.bind fun _ => .ite (.reject _) (.pure _)

theorem mirrors_channel : Mirrors s (channel steps) (Indexed.channel s steps) :=
  mirrors_peek.bind fun _ => (reflects s steps).number.bind fun _ => .ite (.reject _) (.pure _)

theorem mirrors_color : Mirrors s (color steps) (Indexed.color s steps) := by
  refine mirrors_peek.bind fun t => ?_
  cases t.kind with
  | openBrace =>
    refine mirrors_advance.bind fun _ => ?_
    refine mirrors_channel.bind fun red => mirrors_channel.bind fun green => ?_
    exact mirrors_channel.bind fun blue => (mirrors_expectKind _).bind fun _ => .pure _
  | name =>
    refine mirrors_advance.bind fun _ => .current ?_
    cases s.color? t.text with
    | none => exact .reject _
    | some value => exact .pure value
  | _ => exact mirrors_unexpected _

/-- The acts that read values, and the name of a shape that is to be declared, leave the scene as it
is. -/
structure Frame (steps : Nat) : Prop where
  number : Keeps (number steps)
  point : Keeps (point steps)
  namedPoint : Keeps namedPoint
  pointExpression : Keeps (pointExpression steps)
  channel : Keeps (channel steps)
  positive : ∀ quantity : Quantity, Keeps (positive quantity steps)
  color : Keeps (color steps)
  shapeReference : Keeps shapeReference
  newShapeName : Keeps newShapeName

theorem frame (steps : Nat) : Frame steps where
  number := Mirrors.keeps fun s => (reflects s steps).number
  point := Mirrors.keeps fun s => (reflects s steps).point
  namedPoint := Mirrors.keeps fun _ => mirrors_namedPoint
  pointExpression := Mirrors.keeps fun _ => mirrors_pointExpression
  channel := Mirrors.keeps fun _ => mirrors_channel
  positive quantity := Mirrors.keeps fun _ => mirrors_positive quantity
  color := Mirrors.keeps fun _ => mirrors_color
  shapeReference := Mirrors.keeps fun _ => mirrors_shapeReference
  newShapeName := Mirrors.keeps fun _ => mirrors_newShapeName

/-! ### Forms -/

theorem mirrors_references : Mirrors s (references steps) (Indexed.references s steps) := by
  induction steps with
  | zero => exact .halt .outOfSteps
  | succ steps ih =>
    refine mirrors_shapeReference.bind fun id => mirrors_peek.bind fun t => .ite ?_ (.pure _)
    exact ih.bind fun more => .pure _

theorem mirrors_circle : Mirrors s (circle steps) (Indexed.circle s steps) :=
  (reflects s steps).point.bind fun _ => (mirrors_positive _).bind fun _ => .pure _

theorem mirrors_ellipse : Mirrors s (ellipse steps) (Indexed.ellipse s steps) := by
  refine (reflects s steps).point.bind fun _ => (mirrors_positive _).bind fun major => ?_
  exact mirrors_peek.bind fun _ => (mirrors_positive _).bind fun minor =>
    .ite (.reject _) (.pure _)

theorem mirrors_rectangle : Mirrors s (rectangle steps) (Indexed.rectangle s steps) :=
  (reflects s steps).point.bind fun _ => (mirrors_positive _).bind fun _ =>
    (mirrors_positive _).bind fun _ => .pure _

theorem mirrors_triangle : Mirrors s (triangle steps) (Indexed.triangle s steps) :=
  (reflects s steps).point.bind fun _ => (reflects s steps).point.bind fun _ =>
    (reflects s steps).point.bind fun _ => .pure _

theorem mirrors_shifted : Mirrors s (shifted steps) (Indexed.shifted s steps) :=
  (reflects s steps).point.bind fun _ => mirrors_shapeReference.bind fun _ => .pure _

theorem mirrors_rotated : Mirrors s (rotated steps) (Indexed.rotated s steps) :=
  (reflects s steps).number.bind fun _ => (reflects s steps).point.bind fun _ =>
    mirrors_shapeReference.bind fun _ => .pure _

theorem mirrors_union : Mirrors s (union steps) (Indexed.union s steps) :=
  (mirrors_expectKind _).bind fun _ => mirrors_references.bind fun _ =>
    (mirrors_expectKind _).bind fun _ => .pure _

theorem mirrors_difference : Mirrors s (difference steps) (Indexed.difference s steps) :=
  mirrors_shapeReference.bind fun _ => mirrors_shapeReference.bind fun _ => .pure _

theorem mirrors_dimension (quantity : Quantity) :
    Mirrors s (dimension quantity steps) (Indexed.dimension s quantity steps) :=
  mirrors_peek.bind fun _ => (reflects s steps).number.bind fun _ =>
    .ite (.reject _) (.ite (.reject _) (.pure _))

/-! ### Statements -/

/-- A name that was read as a new one is not in the table. -/
theorem newName_eq_ok {table : Declarations γ} {wanted : String}
    {duplicate : String → Position → Violation} {j : Nat} {t : Token}
    (h : Indexed.newName table wanted duplicate tokens i = .ok (t, j)) :
    table.find? t.text = none := by
  rw [Indexed.newName] at h
  cases hname : Indexed.expect .name wanted tokens i with
  | error e =>
    rw [Indexed.bind_eq_of_error hname] at h
    cases h
  | ok r =>
    rw [Indexed.bind_eq_of_ok hname] at h
    cases hfound : table.position? r.1.text with
    | some first =>
      rw [hfound] at h
      cases h
    | none =>
      rw [hfound] at h
      cases h
      exact Option.map_eq_none_iff.mp hfound

theorem performs_declare {name : Token} (hfresh : s.shapeNames.find? name.text = none)
    (form : Form Float) :
    Performs s (declare name form) (pure (.shape name.text name.position form)) := by
  have hadd : s.addShape name.text form name.position =
      ⟨.ok s.drawing.size, s.withShape name.text form name.position⟩ :=
    Scene.addShape_of_fresh hfresh
  have happly : s.apply (.shape name.text name.position form) =
      .ok (s.withShape name.text form name.position) := by
    rw [Scene.apply, Scene.declareShape, hadd]
    rfl
  refine .last happly (b := ()) fun tokens i => ?_
  have hcurrent : currentScene tokens ⟨i, s⟩ = (.ok s, ⟨i, s⟩) := rfl
  rw [declare, bind_eq_of_ok hcurrent, hadd]
  rfl

theorem performs_declareColor {name : Token} (hfresh : s.colors.find? name.text = none)
    (value : Color) :
    Performs s (declareColor name value) (pure (.color name.text name.position value)) := by
  have hadd : s.addColor name.text value name.position =
      ⟨.ok (), s.withColor name.text value name.position⟩ := Scene.addColor_of_fresh hfresh
  have happly : s.apply (.color name.text name.position value) =
      .ok (s.withColor name.text value name.position) := by
    rw [Scene.apply, Scene.declareColor, hadd]
    rfl
  refine .last happly (b := ()) fun tokens i => ?_
  have hcurrent : currentScene tokens ⟨i, s⟩ = (.ok s, ⟨i, s⟩) := rfl
  rw [declareColor, bind_eq_of_ok hcurrent, hadd]
  rfl

/-- The name of a shape is still new when the body behind it has been read. -/
theorem performs_shapeDeclaration {body : Nat → Act (Form Float)}
    {walk : Scene → Nat → Indexed.Walk (Form Float)}
    (hbody : Mirrors s (body steps) (walk s steps)) :
    Performs s (shapeDeclaration body steps) (Indexed.shapeDeclaration walk s steps) :=
  .after mirrors_newShapeName fun hname => .after hbody fun _ =>
    performs_declare (newName_eq_ok hname) _

theorem performs_colorDeclaration :
    Performs s (colorDeclaration steps) (Indexed.colorDeclaration s steps) :=
  .after mirrors_newColorName fun hname => .after mirrors_color fun _ =>
    performs_declareColor (newName_eq_ok hname) _

theorem performs_fill : Performs s (fill steps) (Indexed.fill s steps) :=
  .after mirrors_shapeReference fun _ => .after mirrors_color fun _ => .last rfl fun _ _ => rfl

theorem performs_body (k : Keyword) : Performs s (body k steps) (Indexed.body k s steps) := by
  cases k with
  | circle => exact performs_shapeDeclaration mirrors_circle
  | ellipse => exact performs_shapeDeclaration mirrors_ellipse
  | rectangle => exact performs_shapeDeclaration mirrors_rectangle
  | triangle => exact performs_shapeDeclaration mirrors_triangle
  | shift => exact performs_shapeDeclaration mirrors_shifted
  | rotate => exact performs_shapeDeclaration mirrors_rotated
  | union => exact performs_shapeDeclaration mirrors_union
  | difference => exact performs_shapeDeclaration mirrors_difference
  | color => exact performs_colorDeclaration
  | fill => exact performs_fill

theorem performs_statement [Keyword.Order] : Performs s (statement steps)
    (Indexed.statement s steps) := by
  refine .after mirrors_advance fun {_ _ _ t} _ => ?_
  by_cases hkind : t.kind ≠ .name
  · simp only [if_pos hkind]
    exact .halt _
  · simp only [if_neg hkind]
    cases Keyword.ofText? t.text with
    | none => exact .halt _
    | some k => exact performs_body k

/-! ### Descriptions -/

theorem matches_size : Matches s (fun dimensions _ next =>
    next = .blank dimensions.1 dimensions.2) (size steps) (Indexed.canvas s steps) := by
  refine .after mirrors_peek fun _ => .ite ?_ (.reject _)
  refine .after mirrors_advance fun _ => .after (mirrors_dimension _) fun _ => ?_
  exact .after (mirrors_dimension _) fun _ => .ite (.reject _) (.last rfl fun _ _ => rfl)

/-- The loop over the statements carries out what the walk over them reads. -/
theorem ending_statements [Keyword.Order] (steps : Nat) (s : Scene) (tokens : Array Token)
    (i : Nat) :
    ending (statements steps tokens ⟨i, s⟩) =
      ((Indexed.statements steps s tokens i).map (·.1)).mapError .halted := by
  induction steps generalizing s i with
  | zero => rfl
  | succ steps ih =>
    rw [statements, Indexed.statements]
    cases hpeek : Indexed.peek tokens i with
    | error h =>
      obtain ⟨j, hact⟩ := mirrors_peek.error hpeek
      rw [bind_eq_of_error hact, Indexed.bind_eq_of_error hpeek]
      rfl
    | ok r =>
      obtain ⟨_, _, ⟨rfl, rfl⟩, hact⟩ := mirrors_peek.ok hpeek
      rw [bind_eq_of_ok hact, Indexed.bind_eq_of_ok hpeek]
      by_cases hend : r.1.isEnd = true
      · rw [if_pos hend, if_pos hend]
        rfl
      · rw [if_neg hend, if_neg hend]
        cases hst : Indexed.statement s steps tokens r.2 with
        | error h =>
          obtain ⟨j, hact⟩ := performs_statement.error hst
          rw [bind_eq_of_error hact, Indexed.bind_eq_of_error hst]
          rfl
        | ok st =>
          obtain ⟨_, next, happly, hact⟩ := performs_statement.ok hst
          rw [bind_eq_of_ok hact, Indexed.bind_eq_of_ok hst, happly]
          exact ih next st.2

theorem run_eq [Keyword.Order] (steps : Nat) (tokens : List Token) :
    run steps tokens = (Indexed.run steps tokens).mapError .halted := by
  rw [run, Indexed.run, scene, Indexed.scene]
  cases hsize : Indexed.canvas (.blank 0 0) steps (Indexed.closed tokens).toArray 0 with
  | error h =>
    obtain ⟨j, hact⟩ := matches_size.error hsize
    rw [bind_eq_of_error hact, Indexed.bind_eq_of_error hsize]
    rfl
  | ok r =>
    obtain ⟨_, _, rfl, hact⟩ := matches_size.ok hsize
    rw [bind_eq_of_ok hact, Indexed.bind_eq_of_ok hsize]
    exact ending_statements steps _ _ r.2

/-- No name is found taken when the body of its declaration has been read. -/
theorem run_ne_takenAfterBody [Keyword.Order] (steps : Nat) (tokens : List Token) (r : Rejection) :
    run steps tokens ≠ .error (.takenAfterBody r) := by
  rw [run_eq]
  intro h
  obtain ⟨halt, -, hstop⟩ := Except.mapError_eq_error_iff.mp h
  cases hstop

/-- With enough steps a run comes to what is read. -/
theorem run_eq_ofTokens? [Keyword.Order] (tokens : List Token) (more : Nat) :
    run (2 * tokens.length + 2 + more) tokens =
      (Scene.ofTokens? tokens).mapError fun r => .halted (.rejected r) := by
  have hsteps : Indexed.Enough (2 * tokens.length + 2 + more) (content tokens) := by
    have hlength : (content tokens).length ≤ tokens.length :=
      (List.takeWhile_prefix _).length_le
    unfold Indexed.Enough
    omega
  rw [run_eq, Indexed.run, Indexed.scene_eq hsteps (Indexed.faces_closed tokens), Scene.ofTokens?,
    Indexed.read_eq]
  cases (Indexed.readFrom (Description.stop tokens) (content tokens)).result <;> rfl

/-! ### Repeated names -/

/-- The rejection of a declaration in the scene `s`, for a name that is taken. -/
inductive Repeats (s : Scene) (keyword name : Token) : Rejection → Prop
  | shape {k : Keyword} {first : Position} (htext : keyword.text = k.text) (hcolor : k ≠ .color)
      (hfill : k ≠ .fill) (hfirst : s.shapeNames.position? name.text = some first) :
      Repeats s keyword name ⟨name.position, .duplicateShape name.text first, none⟩
  | color {first : Position} (htext : keyword.text = Keyword.color.text)
      (hfirst : s.colors.position? name.text = some first) :
      Repeats s keyword name ⟨name.position, .duplicateColor name.text first, none⟩

theorem newName_of_taken (c : Context) {table : Declarations γ} {name : Token} {first : Position}
    (hname : name.kind = .name) (hfirst : table.position? name.text = some first) (wanted : String)
    (duplicate : String → Position → Violation) (rest : List Token) :
    Description.newName c table wanted duplicate (name :: rest) =
      .error ⟨name.position, duplicate name.text first, none⟩ := by
  have hexpect : Description.expect c .name wanted (name :: rest) = .ok ⟨name, rest, by simp⟩ := by
    rw [Description.expect, if_pos hname]
  rw [Description.newName, hexpect]
  simp only [bind, Except.bind, hfirst]
  rfl

/-- A name that is taken is rejected, whatever follows it. -/
theorem statement_of_repeats [Keyword.Order] {c : Context} {keyword name : Token} {r : Rejection}
    (h : Repeats c.scene keyword name r) (hkeyword : keyword.kind = .name)
    (hname : name.kind = .name) (rest : List Token) :
    Description.statement c keyword (name :: rest) = .error r := by
  rw [Description.statement, if_neg (not_not_intro hkeyword)]
  cases h with
  | @shape k first htext hcolor hfill hfirst =>
    have hnew : Description.newShapeName c (name :: rest) =
        .error ⟨name.position, .duplicateShape name.text first, none⟩ :=
      newName_of_taken c hname hfirst _ _ rest
    rw [Keyword.ofText?_eq_some_iff.mpr htext]
    cases k with
    | color => exact absurd rfl hcolor
    | fill => exact absurd rfl hfill
    | _ =>
      simp only [Description.body, Description.shapeDeclaration, hnew]
      rfl
  | @color first htext hfirst =>
    have hnew : Description.newColorName c (name :: rest) =
        .error ⟨name.position, .duplicateColor name.text first, none⟩ :=
      newName_of_taken c hname hfirst _ _ rest
    rw [Keyword.ofText?_eq_some_iff.mpr htext]
    simp only [Description.body, Description.colorDeclaration, hnew]
    rfl

/-- A name that is declared again behind a complete description is rejected. -/
theorem ofTokens?_of_repeats [Keyword.Order] {before tokens rest : List Token}
    {keyword name : Token}
    {r : Rejection} (hbefore : Describes .kept before s)
    (htokens : content tokens = before ++ keyword :: name :: rest)
    (hkeyword : keyword.kind = .name) (hname : name.kind = .name)
    (h : Repeats s keyword name r) : Scene.ofTokens? tokens = .error r := by
  cases hbefore with
  | @scene us width height sts hcanvas hsts =>
  have hall : IsCanvas (.blank 0 0) (content tokens) (width, height)
      (us ++ keyword :: name :: rest) := htokens ▸ hcanvas.append
  have hblank : (Scene.ofStatements width height []).Reachable := .blank width height
  have hlast : carryOut (Description.stop tokens) (.ofStatements width height sts)
      (keyword :: name :: rest) = ⟨.ofStatements width height sts, true, [], some r⟩ := by
    rw [carryOut, statement_of_repeats h hkeyword hname rest]
  have hcarry : carryOut (Description.stop tokens) (.ofStatements width height [])
      (us ++ keyword :: name :: rest) = ⟨.ofStatements width height sts, true, sts, some r⟩ := by
    rw [carryOut_append _ hsts hblank, List.nil_append, hlast, List.append_nil]
  rw [Scene.ofTokens?, read_of_canvas hall]
  exact congrArg Progress.result hcarry

end Easel.Stateful

namespace Easel

open Description Stateful

/-- Reading a value leaves the scene as it is, whatever the state it starts from and whatever it
comes to. So the name of a declaration is found taken before anything behind it is read or not at
all, and a shape is made neither from itself nor from its own landmarks. -/
theorem Scene.values_keep_scene [Keyword.Order] :
    (∀ steps, Frame steps) ∧
    (∀ steps tokens r, run steps tokens ≠ .error (.takenAfterBody r)) ∧
    (∀ tokens more, run (2 * tokens.length + 2 + more) tokens =
      (ofTokens? tokens).mapError fun r => .halted (.rejected r)) ∧
    (∀ before tokens keyword name rest s r, Describes .kept before s →
      content tokens = before ++ keyword :: name :: rest → keyword.kind = .name →
      name.kind = .name → Repeats s keyword name r → ofTokens? tokens = .error r) ∧
    (∀ before ts name position form, IsNext before ts (.shape name position form) →
      name ∉ mentionedShapes ts) ∧
    ∀ tokens s, ofTokens? tokens = .ok s → ∀ id form, s.drawing.form? id = some form →
      id ∉ form.references := by
  refine ⟨frame, run_ne_takenAfterBody, run_eq_ofTokens?, ?_, ?_, ?_⟩
  · intro before tokens keyword name rest s r hbefore htokens hkeyword hname h
    exact ofTokens?_of_repeats hbefore htokens hkeyword hname h
  · rintro before ts name position form ⟨s, -, hst⟩
    exact hst.not_mentioned
  · intro tokens s hs id form hform hself
    have hsound := ((read_result_iff tokens).mp hs).sound
    exact Nat.lt_irrefl id (hsound.layered.lt hform hself)

/-- The start of a second declaration of the disc, whose body would not be accepted either. -/
def anotherDisc : List Token :=
  [⟨.name, "circ", .nowhere⟩, ⟨.name, "disc", .nowhere⟩, ⟨.name, "disc", .nowhere⟩]

theorem Scene.anotherDisc_repeated : content lonelyDisc = lonelyDisc ∧
    ofTokens? (lonelyDisc ++ anotherDisc) =
      .error ⟨.nowhere, .duplicateShape "disc" .nowhere, none⟩ := by
  have hcontent : content lonelyDisc = lonelyDisc := by decide
  have htokens : content (lonelyDisc ++ anotherDisc) = lonelyDisc ++ anotherDisc := by decide
  have htaken : ((ofTokens? lonelyDisc).toOption.any fun s =>
      s.shapeNames.position? "disc" = some .nowhere) = true := by decide +kernel
  cases hs : ofTokens? lonelyDisc with
  | error r => rw [hs] at htaken; cases htaken
  | ok s =>
    rw [hs] at htaken
    have hfirst : s.shapeNames.position? "disc" = some .nowhere := of_decide_eq_true htaken
    have hbefore : Describes .kept lonelyDisc s := hcontent ▸ (read_result_iff lonelyDisc).mp hs
    have hrepeats : Repeats s ⟨.name, "circ", .nowhere⟩ ⟨.name, "disc", .nowhere⟩
        ⟨.nowhere, .duplicateShape "disc" .nowhere, none⟩ :=
      .shape (k := .circle) rfl (by decide) (by decide) hfirst
    exact ⟨hcontent, values_keep_scene.2.2.2.1 _ _ _ _ _ s _ hbefore htokens rfl rfl hrepeats⟩

end Easel

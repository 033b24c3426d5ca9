import Mathlib.Data.List.TakeWhile
import Easel.Proofs.Description.Indexed
import Easel.Proofs.Description.Rejection

/-! Reading with an index does what reading a list does. Where the list has a token, the index
stands at it; where the list has ended, the index stands at a mark for the end of the file, which no
walk takes. So there is a token wherever one is looked at, and a number of steps that suffices. -/

namespace Easel.Indexed

open Description

variable {tokens : Array Token} {c : Context} {i : Nat} {ts : List Token} {β γ : Type}

/-- The tokens that are left from the index on, up to a mark for the end of the file. -/
def Faces (tokens : Array Token) (stop : Position) (i : Nat) (ts : List Token) : Prop :=
  ∃ mark behind, tokens.toList.drop i = ts ++ mark :: behind ∧ mark.isEnd = true ∧
    mark.position = stop ∧ ∀ t ∈ ts, t.kind ≠ .endOfFile

/-- A walk from the index has the outcome of a step of reading, and ends where that ends. -/
structure Follows (tokens : Array Token) (c : Context) (i : Nat) (walk : Walk β)
    (step : Except Rejection (Reading ts β)) : Prop where
  ok : ∀ r, step = .ok r → ∃ j, walk tokens i = .ok (r.value, j) ∧ Faces tokens c.stop j r.rest
  error : ∀ e, step = .error e → walk tokens i = .error (.rejected e)

/-- The steps that suffice for any phrase. Nested phrases and turns of a loop take at most two steps
for each token. -/
def Enough (steps : Nat) (ts : List Token) : Prop := 2 * ts.length + 1 < steps

/-- What is at the index: a token that is left, or the mark. -/
structure Shows (c : Context) (ts : List Token) (t : Token) : Prop where
  position : t.position = c.position ts
  quoted : t.quoted = Context.quoted ts
  kind : t.kind = (ts.head?.map (·.kind)).getD .endOfFile

theorem getElem?_of_drop {t : Token} {rest : List Token} (h : tokens.toList.drop i = t :: rest) :
    tokens[i]? = some t := by
  rw [← Array.getElem?_toList, ← List.head?_drop, h, List.head?_cons]

namespace Faces

theorem peek (h : Faces tokens c.stop i ts) :
    ∃ t, Indexed.peek tokens i = .ok (t, i) ∧ Shows c ts t := by
  obtain ⟨mark, behind, hdrop, hmark, hstop, -⟩ := h
  cases ts with
  | nil =>
    have hkind : mark.kind = .endOfFile := of_decide_eq_true hmark
    refine ⟨mark, ?_, hstop, ?_, hkind⟩
    · rw [Indexed.peek, getElem?_of_drop hdrop]
    · rw [Token.quoted, hkind]
      rfl
  | cons t rest =>
    refine ⟨t, ?_, rfl, rfl, rfl⟩
    rw [Indexed.peek, getElem?_of_drop hdrop]

theorem isEnd_eq_false {stop : Position} {t : Token} {rest : List Token}
    (h : Faces tokens stop i (t :: rest)) : t.isEnd = false := by
  obtain ⟨mark, behind, -, -, -, hrest⟩ := h
  exact decide_eq_false (hrest t List.mem_cons_self)

theorem peek_cons {t : Token} {rest : List Token} (h : Faces tokens c.stop i (t :: rest)) :
    Indexed.peek tokens i = .ok (t, i) := by
  obtain ⟨mark, behind, hdrop, -⟩ := h
  rw [Indexed.peek, getElem?_of_drop hdrop]

theorem advance {t : Token} {rest : List Token} (h : Faces tokens c.stop i (t :: rest)) :
    Indexed.advance tokens i = .ok (t, i + 1) ∧ Faces tokens c.stop (i + 1) rest := by
  obtain ⟨mark, behind, hdrop, hmark, hstop, hrest⟩ := h
  constructor
  · rw [Indexed.advance, getElem?_of_drop hdrop]
    simp [Token.isEnd, hrest t List.mem_cons_self]
  · refine ⟨mark, behind, ?_, hmark, hstop, fun u hu => hrest u (List.mem_cons_of_mem t hu)⟩
    rw [← List.tail_drop, hdrop]
    rfl

end Faces

section Bind

variable {walk : Walk β} {cont : β → Walk γ}

theorem bind_eq_of_ok {b : β} {j : Nat} (h : walk tokens i = .ok (b, j)) :
    (walk >>= cont) tokens i = cont b tokens j := by
  change walk.andThen cont tokens i = _
  rw [Walk.andThen, h]

theorem bind_eq_of_error {e : Halt} (h : walk tokens i = .error e) :
    (walk >>= cont) tokens i = .error e := by
  change walk.andThen cont tokens i = _
  rw [Walk.andThen, h]

end Bind

namespace Follows

variable {vs : List Token} {walk walk' : Walk β} {cont : β → Walk γ}

theorem pure {b : β} {rest : List Token} {shorter : rest.length < ts.length}
    (h : Faces tokens c.stop i rest) :
    Follows tokens c i (Pure.pure b) (.ok (⟨b, rest, shorter⟩ : Reading ts β)) where
  ok := by
    rintro _ ⟨⟩
    exact ⟨i, rfl, h⟩
  error := nofun

theorem reject {e : Rejection} :
    Follows tokens c i (Indexed.reject e : Walk β)
      (.error e : Except Rejection (Reading ts β)) where
  ok := nofun
  error := by
    rintro _ ⟨⟩
    rfl

theorem bind {first : Except Rejection (Reading vs β)}
    {next : Reading vs β → Except Rejection (Reading ts γ)} (hfirst : Follows tokens c i walk first)
    (hnext : ∀ r j, Faces tokens c.stop j r.rest → Follows tokens c j (cont r.value) (next r)) :
    Follows tokens c i (walk >>= cont) (first >>= next) := by
  cases first with
  | error e =>
    refine ⟨nofun, ?_⟩
    rintro _ ⟨⟩
    exact bind_eq_of_error (hfirst.error e rfl)
  | ok r =>
    obtain ⟨j, hwalk, hfaces⟩ := hfirst.ok r rfl
    have hrest := hnext r j hfaces
    constructor
    · intro r' hr'
      rw [bind_eq_of_ok hwalk]
      exact hrest.ok r' hr'
    · intro e he
      rw [bind_eq_of_ok hwalk]
      exact hrest.error e he

/-- A walk may look at a token, or take one, before it follows a step. -/
theorem after {b : β} {j : Nat} {step : Except Rejection (Reading ts γ)}
    (hwalk : walk tokens i = .ok (b, j)) (h : Follows tokens c j (cont b) step) :
    Follows tokens c i (walk >>= cont) step := by
  constructor
  · intro r hr
    rw [bind_eq_of_ok hwalk]
    exact h.ok r hr
  · intro e he
    rw [bind_eq_of_ok hwalk]
    exact h.error e he

/-- What is read behind a token that the walk has taken. -/
theorem behind {t : Token} {step : Except Rejection (Reading ts β)}
    (h : Follows tokens c i walk step) :
    Follows tokens c i walk (step >>= fun r => .ok (r.after t)) := by
  cases step with
  | error e =>
    refine ⟨nofun, ?_⟩
    rintro _ ⟨⟩
    exact h.error e rfl
  | ok r =>
    refine ⟨?_, nofun⟩
    rintro _ ⟨⟩
    exact h.ok r rfl

theorem ite {p : Prop} [Decidable p] {step step' : Except Rejection (Reading ts β)}
    (hpos : p → Follows tokens c i walk step) (hneg : ¬p → Follows tokens c i walk' step') :
    Follows tokens c i (if p then walk else walk') (if p then step else step') := by
  by_cases h : p
  · rw [if_pos h, if_pos h]
    exact hpos h
  · rw [if_neg h, if_neg h]
    exact hneg h

end Follows

/-! ### Names and single tokens -/

theorem follows_unexpected (wanted : String) (hts : Faces tokens c.stop i ts) :
    Follows tokens c i (unexpected wanted)
      (.error (c.unexpected wanted ts) : Except Rejection (Reading ts β)) := by
  obtain ⟨t, hpeek, hshows⟩ := hts.peek
  apply Follows.after hpeek
  rw [Context.unexpected, ← hshows.position, ← hshows.quoted]
  exact .reject

/-- At the mark a walk that wants a token is as unexpected as the end of the list. -/
theorem follows_nil {cont : Token → Walk β} {wanted : String} (hts : Faces tokens c.stop i [])
    (hcont : ∀ mark : Token, mark.kind = .endOfFile → cont mark = unexpected wanted) :
    Follows tokens c i (peek >>= cont)
      (.error (c.unexpected wanted []) : Except Rejection (Reading [] β)) := by
  obtain ⟨mark, hpeek, hshows⟩ := hts.peek
  apply Follows.after hpeek
  rw [hcont mark hshows.kind]
  exact follows_unexpected wanted hts

theorem follows_advance {t : Token} {rest : List Token}
    {shorter : rest.length < (t :: rest).length} (hts : Faces tokens c.stop i (t :: rest)) :
    Follows tokens c i advance (.ok ⟨t, rest, shorter⟩) where
  ok := by
    rintro _ ⟨⟩
    exact ⟨i + 1, hts.advance⟩
  error := nofun

theorem follows_expect {kind : TokenKind} (wanted : String) (hkind : kind ≠ .endOfFile)
    (hts : Faces tokens c.stop i ts) :
    Follows tokens c i (expect kind wanted) (Description.expect c kind wanted ts) := by
  cases ts with
  | nil =>
    apply follows_nil hts
    intro mark hmark
    rw [if_neg (by rw [hmark]; exact Ne.symm hkind)]
  | cons t rest =>
    apply Follows.after hts.peek_cons
    rw [Description.expect]
    exact .ite (fun _ => follows_advance hts) fun _ => follows_unexpected wanted hts

theorem follows_expectKind {kind : TokenKind} (hkind : kind ≠ .endOfFile)
    (hts : Faces tokens c.stop i ts) :
    Follows tokens c i (expectKind kind) (Description.expectKind c kind ts) :=
  follows_expect kind.description hkind hts

theorem expectKind_eq {t : Token} {rest : List Token} {kind : TokenKind}
    (hts : Faces tokens c.stop i (t :: rest)) (hkind : t.kind = kind) :
    expectKind kind tokens i = .ok (t, i + 1) := by
  rw [expectKind, expect, bind_eq_of_ok hts.peek_cons, if_pos hkind]
  exact hts.advance.1

theorem follows_shapeReference (hts : Faces tokens c.stop i ts) :
    Follows tokens c i (shapeReference c.scene) (Description.shapeReference c ts) := by
  refine (follows_expect _ (by decide) hts).bind fun r j hrest => ?_
  dsimp only
  cases c.scene.shape? r.value.text with
  | none => exact .reject
  | some id => exact .pure hrest

theorem follows_newName {table : Declarations γ} (wanted : String)
    (duplicate : String → Position → Violation) (hts : Faces tokens c.stop i ts) :
    Follows tokens c i (newName table wanted duplicate)
      (Description.newName c table wanted duplicate ts) := by
  refine (follows_expect _ (by decide) hts).bind fun r j hrest => ?_
  dsimp only
  cases table.position? r.value.text with
  | none => exact .pure hrest
  | some first => exact .reject

theorem follows_namedPoint (hts : Faces tokens c.stop i ts) :
    Follows tokens c i (namedPoint c.scene) (Description.namedPoint c ts) := by
  refine (follows_shapeReference hts).bind fun shape j1 h1 => ?_
  refine (follows_expectKind (by decide) h1).bind fun dot j2 h2 => ?_
  refine (follows_expect _ (by decide) h2).bind fun mark j3 h3 => ?_
  dsimp only
  cases c.scene.drawing.landmark? shape.value mark.value.text with
  | none => exact .reject
  | some p => exact .pure h3

/-! ### Numbers and points -/

/-- Walks in at most `steps` steps follow the steps of reading from all tokens for which these
suffice. -/
structure Tracks (tokens : Array Token) (c : Context) (steps : Nat) : Prop where
  number : ∀ {i : Nat} {ts : List Token}, Faces tokens c.stop i ts → 2 * ts.length + 1 < steps →
    Follows tokens c i (Indexed.number c.scene steps) (Description.number c ts)
  point : ∀ {i : Nat} {ts : List Token}, Faces tokens c.stop i ts → 2 * ts.length < steps →
    Follows tokens c i (Indexed.point c.scene steps) (Description.point c ts)
  operation : ∀ {i : Nat} {ts : List Token} (operator : Token), Faces tokens c.stop i ts →
    2 * ts.length + 2 < steps →
    Follows tokens c i (Indexed.operation c.scene operator steps)
      (Description.operation c operator ts)
  points : ∀ {i : Nat} {ts : List Token}, Faces tokens c.stop i ts → 2 * ts.length + 1 < steps →
    Follows tokens c i (Indexed.points c.scene steps) (Description.points c ts)

variable {steps : Nat}

theorem follows_number (h : Tracks tokens c steps) (hts : Faces tokens c.stop i ts)
    (hsteps : 2 * ts.length + 1 < steps + 1) :
    Follows tokens c i (number c.scene (steps + 1)) (Description.number c ts) := by
  rw [number]
  cases ts with
  | nil =>
    rw [Description.number]
    apply follows_nil hts
    intro mark hmark
    simp only [hmark]
    rfl
  | cons t rest =>
    rw [Description.number]
    apply Follows.after hts.peek_cons
    apply Follows.ite
    · intro _
      apply Follows.after hts.advance.1
      cases Literal.read? t.text.toList with
      | none => exact .reject
      | some x => exact .pure hts.advance.2
    · intro _
      apply Follows.ite
      · intro _
        refine (h.point hts (by omega)).bind fun p j1 h1 => ?_
        refine (follows_expectKind (by decide) h1).bind fun dot j2 h2 => ?_
        refine (follows_expect _ (by decide) h2).bind fun axis j3 h3 => ?_
        dsimp only
        rw [coordinate]
        cases Description.coordinate p.value axis.value with
        | error e => exact .reject
        | ok x => exact .pure h3
      · intro _
        exact follows_unexpected _ hts

theorem follows_point (h : Tracks tokens c steps) (hts : Faces tokens c.stop i ts)
    (hsteps : 2 * ts.length < steps + 1) :
    Follows tokens c i (point c.scene (steps + 1)) (Description.point c ts) := by
  rw [point]
  cases ts with
  | nil =>
    rw [Description.point]
    apply follows_nil hts
    intro mark hmark
    simp only [hmark]
  | cons t rest =>
    rw [List.length_cons] at hsteps
    rw [Description.point]
    apply Follows.after hts.peek_cons
    cases hkind : t.kind with
    | openBrace =>
      apply Follows.after hts.advance.1
      refine (h.number hts.advance.2 (by omega)).bind fun x j1 h1 => ?_
      have hx := x.shorter
      refine (h.number h1 (by omega)).bind fun y j2 h2 => ?_
      exact (follows_expectKind (by decide) h2).bind fun brace j3 h3 => .pure h3
    | name => exact follows_namedPoint hts
    | openParen =>
      apply Follows.after (expectKind_eq hts hkind)
      refine (follows_expectKind (by decide) hts.advance.2).bind fun operator j1 h1 => ?_
      have hoperator := operator.shorter
      refine (h.operation operator.value h1 (by omega)).bind fun p j2 h2 => ?_
      exact (follows_expectKind (by decide) h2).bind fun paren j3 h3 => .pure h3
    | _ => exact follows_unexpected _ hts

theorem follows_operation (h : Tracks tokens c steps) (operator : Token)
    (hts : Faces tokens c.stop i ts) (hsteps : 2 * ts.length + 2 < steps + 1) :
    Follows tokens c i (operation c.scene operator (steps + 1))
      (Description.operation c operator ts) := by
  rw [operation, Description.operation]
  apply Follows.ite
  · intro _
    exact (h.points hts (by omega)).bind fun ps j h1 => .pure h1
  · intro _
    apply Follows.ite
    · intro _
      exact (h.points hts (by omega)).bind fun ps j h1 => .pure h1
    · intro _
      apply Follows.ite
      · intro _
        refine (h.point hts (by omega)).bind fun p j1 h1 => ?_
        have hp := p.shorter
        exact (h.number h1 (by omega)).bind fun k j2 h2 => .pure h2
      · intro _
        apply Follows.ite
        · intro _
          refine (h.point hts (by omega)).bind fun p j1 h1 => ?_
          have hp := p.shorter
          refine (h.number h1 (by omega)).bind fun k j2 h2 => ?_
          exact .ite (fun _ => .reject) fun _ => .pure h2
        · intro _
          exact .reject

theorem follows_points (h : Tracks tokens c steps) (hts : Faces tokens c.stop i ts)
    (hsteps : 2 * ts.length + 1 < steps + 1) :
    Follows tokens c i (points c.scene (steps + 1)) (Description.points c ts) := by
  rw [points, Description.points]
  refine (h.point hts (by omega)).bind fun p j1 h1 => ?_
  have hp := p.shorter
  obtain ⟨t, hpeek, hshows⟩ := h1.peek
  apply Follows.after hpeek
  have hstarts : t.kind.startsPoint = (p.rest.head?.map (·.kind.startsPoint)).getD false := by
    rw [hshows.kind]
    cases p.rest <;> rfl
  rw [hstarts]
  apply Follows.ite
  · intro _
    exact (h.points h1 (by omega)).bind fun more j2 h2 => .pure h2
  · intro _
    exact .pure h1

theorem tracks (tokens : Array Token) (c : Context) (steps : Nat) : Tracks tokens c steps := by
  induction steps with
  | zero => constructor <;> intros <;> omega
  | succ steps ih =>
    exact ⟨follows_number ih, follows_point ih, follows_operation ih, follows_points ih⟩

/-! ### Values -/

theorem Enough.mono {us : List Token} (h : Enough steps ts) (hle : us.length ≤ ts.length) :
    Enough steps us := by
  unfold Enough at h ⊢
  omega

/-- What suffices for some tokens suffices for those behind what was read. -/
theorem Enough.rest (h : Enough steps ts) (r : Reading ts β) : Enough steps r.rest :=
  h.mono (Nat.le_of_lt r.shorter)

theorem Enough.tail {t : Token} {rest : List Token} (h : Enough steps (t :: rest)) :
    Enough steps rest :=
  h.mono (Nat.le_succ rest.length)

theorem Enough.number (h : Enough steps ts) (hts : Faces tokens c.stop i ts) :
    Follows tokens c i (Indexed.number c.scene steps) (Description.number c ts) :=
  (tracks tokens c steps).number hts h

theorem Enough.point (h : Enough steps ts) (hts : Faces tokens c.stop i ts) :
    Follows tokens c i (Indexed.point c.scene steps) (Description.point c ts) :=
  (tracks tokens c steps).point hts (Nat.lt_of_succ_lt h)

theorem follows_positive (quantity : Quantity) (hsteps : Enough steps ts)
    (hts : Faces tokens c.stop i ts) :
    Follows tokens c i (positive c.scene quantity steps) (Description.positive c quantity ts) := by
  obtain ⟨t, hpeek, hshows⟩ := hts.peek
  apply Follows.after hpeek
  refine (hsteps.number hts).bind fun x j h => ?_
  rw [hshows.position]
  exact .ite (fun _ => .reject) fun _ => .pure h

theorem follows_channel (hsteps : Enough steps ts) (hts : Faces tokens c.stop i ts) :
    Follows tokens c i (channel c.scene steps) (Description.channel c ts) := by
  obtain ⟨t, hpeek, hshows⟩ := hts.peek
  apply Follows.after hpeek
  refine (hsteps.number hts).bind fun x j h => ?_
  rw [hshows.position]
  exact .ite (fun _ => .reject) fun _ => .pure h

theorem follows_dimension (quantity : Quantity) (hsteps : Enough steps ts)
    (hts : Faces tokens c.stop i ts) :
    Follows tokens c i (dimension c.scene quantity steps)
      (Description.dimension c quantity ts) := by
  obtain ⟨t, hpeek, hshows⟩ := hts.peek
  apply Follows.after hpeek
  refine (hsteps.number hts).bind fun x j h => ?_
  rw [hshows.position]
  apply Follows.ite
  · intro _
    exact .reject
  · intro _
    exact .ite (fun _ => .reject) fun _ => .pure h

theorem follows_color (hsteps : Enough steps ts) (hts : Faces tokens c.stop i ts) :
    Follows tokens c i (color c.scene steps) (Description.color c ts) := by
  cases ts with
  | nil =>
    rw [Description.color]
    apply follows_nil hts
    intro mark hmark
    simp only [hmark]
  | cons t rest =>
    have hrest := hsteps.tail
    rw [Description.color]
    apply Follows.after hts.peek_cons
    cases hkind : t.kind with
    | openBrace =>
      apply Follows.after hts.advance.1
      refine (follows_channel hrest hts.advance.2).bind fun red j1 h1 => ?_
      refine (follows_channel (hrest.rest red) h1).bind fun green j2 h2 => ?_
      refine (follows_channel ((hrest.rest red).rest green) h2).bind fun blue j3 h3 => ?_
      exact (follows_expectKind (by decide) h3).bind fun brace j4 h4 => .pure h4
    | name =>
      apply Follows.after hts.advance.1
      dsimp only
      cases c.scene.color? t.text with
      | none => exact .reject
      | some value => exact .pure hts.advance.2
    | _ => exact follows_unexpected _ hts

theorem follows_canvas (hsteps : Enough steps ts) (hts : Faces tokens c.stop i ts) :
    Follows tokens c i (canvas c.scene steps) (Description.canvas c ts) := by
  cases ts with
  | nil =>
    obtain ⟨mark, hpeek, hshows⟩ := hts.peek
    have hkind : mark.kind = .endOfFile := hshows.kind
    rw [Description.canvas]
    apply Follows.after hpeek
    rw [if_neg (by simp [hkind]), hshows.quoted, hshows.position]
    exact .reject
  | cons t rest =>
    have hrest := hsteps.tail
    rw [Description.canvas]
    apply Follows.after hts.peek_cons
    apply Follows.ite
    · intro _
      apply Follows.after hts.advance.1
      refine (follows_dimension _ hrest hts.advance.2).bind fun width j1 h1 => ?_
      refine (follows_dimension _ (hrest.rest width) h1).bind fun height j2 h2 => ?_
      exact .ite (fun _ => .reject) fun _ => .pure h2
    · intro _
      exact .reject

/-! ### Shapes -/

theorem follows_references (hsteps : ts.length < steps) (hts : Faces tokens c.stop i ts) :
    Follows tokens c i (references c.scene steps) (Description.references c ts) := by
  induction steps generalizing i ts with
  | zero => omega
  | succ steps ih =>
    rw [references, Description.references]
    refine (follows_shapeReference hts).bind fun member j1 h1 => ?_
    have hmember := member.shorter
    obtain ⟨t, hpeek, hshows⟩ := h1.peek
    apply Follows.after hpeek
    have hname : t.kind = .name ↔ member.rest.head?.map (·.kind) = some .name := by
      rw [hshows.kind]
      cases member.rest <;> simp
    dsimp only
    by_cases hmore : t.kind = .name
    · rw [if_pos hmore, if_pos (hname.mp hmore)]
      exact (ih (by omega) h1).bind fun more j2 h2 => .pure h2
    · rw [if_neg hmore, if_neg fun h => hmore (hname.mpr h)]
      exact .pure h1

theorem follows_circle (hsteps : Enough steps ts) (hts : Faces tokens c.stop i ts) :
    Follows tokens c i (circle c.scene steps) (Description.circle c ts) := by
  refine (hsteps.point hts).bind fun center j1 h1 => ?_
  exact (follows_positive _ (hsteps.rest center) h1).bind fun radius j2 h2 => .pure h2

theorem follows_ellipse (hsteps : Enough steps ts) (hts : Faces tokens c.stop i ts) :
    Follows tokens c i (ellipse c.scene steps) (Description.ellipse c ts) := by
  refine (hsteps.point hts).bind fun center j1 h1 => ?_
  have hmajor := hsteps.rest center
  refine (follows_positive _ hmajor h1).bind fun major j2 h2 => ?_
  obtain ⟨t, hpeek, hshows⟩ := h2.peek
  apply Follows.after hpeek
  refine (follows_positive _ (hmajor.rest major) h2).bind fun minor j3 h3 => ?_
  rw [hshows.position]
  exact .ite (fun _ => .reject) fun _ => .pure h3

theorem follows_rectangle (hsteps : Enough steps ts) (hts : Faces tokens c.stop i ts) :
    Follows tokens c i (rectangle c.scene steps) (Description.rectangle c ts) := by
  refine (hsteps.point hts).bind fun center j1 h1 => ?_
  have hwidth := hsteps.rest center
  refine (follows_positive _ hwidth h1).bind fun width j2 h2 => ?_
  exact (follows_positive _ (hwidth.rest width) h2).bind fun height j3 h3 => .pure h3

theorem follows_triangle (hsteps : Enough steps ts) (hts : Faces tokens c.stop i ts) :
    Follows tokens c i (triangle c.scene steps) (Description.triangle c ts) := by
  refine (hsteps.point hts).bind fun v0 j1 h1 => ?_
  have h0 := hsteps.rest v0
  refine (h0.point h1).bind fun v1 j2 h2 => ?_
  exact ((h0.rest v1).point h2).bind fun v2 j3 h3 => .pure h3

theorem follows_shifted (hsteps : Enough steps ts) (hts : Faces tokens c.stop i ts) :
    Follows tokens c i (shifted c.scene steps) (Description.shifted c ts) := by
  refine (hsteps.point hts).bind fun offset j1 h1 => ?_
  exact (follows_shapeReference h1).bind fun target j2 h2 => .pure h2

theorem follows_rotated (hsteps : Enough steps ts) (hts : Faces tokens c.stop i ts) :
    Follows tokens c i (rotated c.scene steps) (Description.rotated c ts) := by
  refine (hsteps.number hts).bind fun degrees j1 h1 => ?_
  refine ((hsteps.rest degrees).point h1).bind fun pivot j2 h2 => ?_
  exact (follows_shapeReference h2).bind fun target j3 h3 => .pure h3

theorem follows_union (hsteps : Enough steps ts) (hts : Faces tokens c.stop i ts) :
    Follows tokens c i (union c.scene steps) (Description.union c ts) := by
  refine (follows_expectKind (by decide) hts).bind fun opening j1 h1 => ?_
  have hmembers : opening.rest.length < steps := by
    have h := hsteps.rest opening
    unfold Enough at h
    omega
  refine (follows_references hmembers h1).bind fun members j2 h2 => ?_
  exact (follows_expectKind (by decide) h2).bind fun closing j3 h3 => .pure h3

theorem follows_difference (hts : Faces tokens c.stop i ts) :
    Follows tokens c i (difference c.scene steps) (Description.difference c ts) := by
  refine (follows_shapeReference hts).bind fun base j1 h1 => ?_
  exact (follows_shapeReference h1).bind fun subtrahend j2 h2 => .pure h2

/-! ### Statements -/

theorem follows_shapeDeclaration {body : Scene → Nat → Walk (Form Float)}
    {body' : Context → (ts : List Token) → Except Rejection (Reading ts (Form Float))}
    (hbody : ∀ {j : Nat} {us : List Token}, Enough steps us → Faces tokens c.stop j us →
      Follows tokens c j (body c.scene steps) (body' c us))
    (hsteps : Enough steps ts) (hts : Faces tokens c.stop i ts) :
    Follows tokens c i (shapeDeclaration body c.scene steps)
      (Description.shapeDeclaration c body' ts) := by
  refine (follows_newName _ _ hts).bind fun name j1 h1 => ?_
  exact (hbody (hsteps.rest name) h1).bind fun form j2 h2 => .pure h2

theorem follows_colorDeclaration (hsteps : Enough steps ts) (hts : Faces tokens c.stop i ts) :
    Follows tokens c i (colorDeclaration c.scene steps) (Description.colorDeclaration c ts) := by
  refine (follows_newName _ _ hts).bind fun name j1 h1 => ?_
  exact (follows_color (hsteps.rest name) h1).bind fun value j2 h2 => .pure h2

theorem follows_fill (hsteps : Enough steps ts) (hts : Faces tokens c.stop i ts) :
    Follows tokens c i (fill c.scene steps) (Description.fill c ts) := by
  refine (follows_shapeReference hts).bind fun target j1 h1 => ?_
  exact (follows_color (hsteps.rest target) h1).bind fun value j2 h2 => .pure h2

theorem follows_body (k : Keyword) (hsteps : Enough steps ts) (hts : Faces tokens c.stop i ts) :
    Follows tokens c i (body k c.scene steps) (Description.body c k ts) := by
  cases k with
  | circle => exact follows_shapeDeclaration follows_circle hsteps hts
  | ellipse => exact follows_shapeDeclaration follows_ellipse hsteps hts
  | rectangle => exact follows_shapeDeclaration follows_rectangle hsteps hts
  | triangle => exact follows_shapeDeclaration follows_triangle hsteps hts
  | shift => exact follows_shapeDeclaration follows_shifted hsteps hts
  | rotate => exact follows_shapeDeclaration follows_rotated hsteps hts
  | union => exact follows_shapeDeclaration follows_union hsteps hts
  | difference =>
    exact follows_shapeDeclaration (fun _ => follows_difference) hsteps hts
  | color => exact follows_colorDeclaration hsteps hts
  | fill => exact follows_fill hsteps hts

theorem follows_statement [Keyword.Order] {t : Token} {rest : List Token}
    (hsteps : Enough steps rest)
    (hts : Faces tokens c.stop i (t :: rest)) :
    Follows tokens c i (statement c.scene steps) (Description.statement c t rest) := by
  rw [Description.statement]
  apply Follows.after hts.advance.1
  apply Follows.ite
  · intro _
    exact .reject
  · intro _
    cases Keyword.ofText? t.text with
    | none => exact .reject
    | some k => exact (follows_body k hsteps hts.advance.2).behind

/-! ### Descriptions -/

/-- The loop over the statements comes to the scene of the statements that are left, or rejects
them. -/
theorem statements_eq [Keyword.Order] {stop : Position} {s : Scene} (hsteps : Enough steps ts)
    (hts : Faces tokens stop i ts) :
    (statements steps s tokens i).map (·.1) =
      (carryOut stop s ts).result.mapError Halt.rejected := by
  induction steps generalizing s i ts with
  | zero => cases hsteps
  | succ steps ih =>
    cases ts with
    | nil =>
      obtain ⟨mark, hpeek, hshows⟩ := Faces.peek (c := ⟨s, stop⟩) hts
      have hend : mark.isEnd = true := decide_eq_true hshows.kind
      rw [statements, bind_eq_of_ok hpeek, if_pos hend, carryOut]
      rfl
    | cons t rest =>
      have hrest : Enough steps rest := by
        unfold Enough at hsteps ⊢
        rw [List.length_cons] at hsteps
        omega
      have hend : t.isEnd = false := hts.isEnd_eq_false
      have hpeek := Faces.peek_cons (c := ⟨s, stop⟩) hts
      have hstatement := follows_statement (c := ⟨s, stop⟩) hrest hts
      rw [statements, bind_eq_of_ok hpeek, if_neg (by simp [hend]), carryOut]
      cases hst : Description.statement ⟨s, stop⟩ t rest with
      | error e =>
        rw [bind_eq_of_error (hstatement.error e hst)]
        rfl
      | ok r =>
        obtain ⟨j, hwalk, hfaces⟩ := hstatement.ok r hst
        rw [bind_eq_of_ok hwalk]
        dsimp only
        cases happly : s.apply r.value with
        | error e => rfl
        | ok next => exact ih (hrest.mono (Nat.le_of_lt_succ r.shorter)) hfaces

/-- Reading the tokens in front of a mark for the end of the file. -/
def readFrom [Keyword.Order] (stop : Position) (ts : List Token) : Progress :=
  match Description.canvas ⟨.blank 0 0, stop⟩ ts with
  | .error r => ⟨.blank 0 0, false, [], some r⟩
  | .ok ⟨(width, height), rest, _⟩ => carryOut stop (.blank width height) rest

theorem read_eq [Keyword.Order] (description : List Token) :
    Description.read description = readFrom (stop description) (content description) := by
  unfold Description.read readFrom
  dsimp only
  cases Description.canvas ⟨.blank 0 0, stop description⟩ (content description) <;> rfl

theorem scene_eq [Keyword.Order] {stop : Position} (hsteps : Enough steps ts)
    (hts : Faces tokens stop i ts) :
    (scene steps tokens i).map (·.1) = (readFrom stop ts).result.mapError Halt.rejected := by
  have hcanvas := follows_canvas (c := ⟨.blank 0 0, stop⟩) hsteps hts
  unfold scene readFrom
  cases hread : Description.canvas ⟨.blank 0 0, stop⟩ ts with
  | error e =>
    rw [bind_eq_of_error (hcanvas.error e hread)]
    rfl
  | ok r =>
    obtain ⟨j, hwalk, hfaces⟩ := hcanvas.ok r hread
    rw [bind_eq_of_ok hwalk]
    exact statements_eq (hsteps.rest r) hfaces

/-! ### The end of the file -/

theorem kind_of_mem_content {description : List Token} :
    ∀ t ∈ content description, t.kind ≠ .endOfFile := by
  intro t ht
  simpa [Token.isEnd] using List.mem_takeWhile_imp ht

theorem content_eq_self {description : List Token} (h : description.find? Token.isEnd = none) :
    content description = description := by
  rw [content, List.takeWhile_eq_self_iff]
  intro t ht
  rw [Bool.not_eq_true', Bool.eq_false_iff]
  exact List.find?_eq_none.mp h t ht

/-- Tokens that are closed have a mark behind those that count. -/
theorem exists_mark (description : List Token) :
    ∃ mark behind, closed description = content description ++ mark :: behind ∧
      mark.isEnd = true ∧ mark.position = stop description := by
  unfold closed
  cases hfind : description.find? Token.isEnd with
  | some mark =>
    obtain ⟨hmark, before, behind, rfl, hbefore⟩ := List.find?_eq_some_iff_append.mp hfind
    have hplain : ∀ t ∈ before, t.kind ≠ .endOfFile := by simpa [Token.isEnd] using hbefore
    rw [content_eq_of_mark hplain hmark, stop_eq_of_mark hplain hmark]
    split
    · exact ⟨mark, behind, rfl, hmark, rfl⟩
    · exact ⟨mark, behind ++ [_], List.append_assoc _ _ _, hmark, rfl⟩
  | none =>
    have hlast : description.getLast?.any Token.isEnd = false := by
      cases hlast : description.getLast? with
      | none => rfl
      | some last =>
        have hmore := List.find?_eq_none.mp hfind last (List.mem_of_getLast? hlast)
        exact Bool.eq_false_iff.mpr hmore
    rw [hlast, content_eq_self hfind, stop, hfind]
    exact ⟨_, [], rfl, rfl, rfl⟩

theorem faces_closed (description : List Token) :
    Faces (closed description).toArray (stop description) 0 (content description) := by
  obtain ⟨mark, behind, hclosed, hmark, hstop⟩ := exists_mark description
  exact ⟨mark, behind, hclosed, hmark, hstop, kind_of_mem_content⟩

/-- The tokens up to the first mark for the end of the file, and with it. -/
def upToEnd (description : List Token) : List Token :=
  content description ++ (description.find? Token.isEnd).toList

theorem read_closed [Keyword.Order] (description : List Token) :
    Description.read (closed description) = Description.read description := by
  obtain ⟨mark, behind, hclosed, hmark, hstop⟩ := exists_mark description
  rw [hclosed, read_eq, read_eq, content_eq_of_mark kind_of_mem_content hmark,
    stop_eq_of_mark kind_of_mem_content hmark, hstop]

theorem read_upToEnd [Keyword.Order] (description : List Token) :
    Description.read (upToEnd description) = Description.read description := by
  unfold upToEnd
  cases hfind : description.find? Token.isEnd with
  | some mark =>
    have hmark := List.find?_some hfind
    have hstop : stop description = mark.position := by rw [stop, hfind]
    rw [Option.toList_some, read_eq, read_eq, content_eq_of_mark kind_of_mem_content hmark,
      stop_eq_of_mark kind_of_mem_content hmark, hstop]
  | none =>
    rw [content_eq_self hfind, Option.toList_none, List.append_nil]

end Easel.Indexed

namespace Easel

open Description Indexed

/-- Reading any list of tokens with an index ends after a bounded number of steps with what is read
from the list: a scene or a rejection, but not with an index without a token, nor by taking a mark
for the end of the file. What is read depends on the tokens up to the first of these marks only, and
does not change when one is put behind tokens that have none there. -/
theorem Scene.build?_total [Keyword.Order] (file : String) (tokens : List Token) :
    (∀ more, Indexed.run (2 * tokens.length + 2 + more) tokens =
      (ofTokens? tokens).mapError Halt.rejected) ∧
    build? file (closed tokens) = build? file tokens ∧
    build? file (upToEnd tokens) = build? file tokens := by
  refine ⟨?_, ?_, ?_⟩
  · intro more
    have hsteps : Enough (2 * tokens.length + 2 + more) (content tokens) := by
      have hlength : (content tokens).length ≤ tokens.length :=
        (List.takeWhile_prefix _).length_le
      unfold Enough
      omega
    rw [run, ofTokens?, read_eq]
    exact scene_eq hsteps (faces_closed tokens)
  · rw [build?, ofTokens?, read_closed]
    rfl
  · rw [build?, ofTokens?, read_upToEnd]
    rfl

end Easel

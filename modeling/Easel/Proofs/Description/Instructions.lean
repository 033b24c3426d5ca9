import Easel.Proofs.Description.Continuation
import Easel.Proofs.Description.Placement
import Easel.Proofs.Scene.Relocation

/-! Descriptions as sequences of instructions. A description that is accepted is a canvas with
instructions behind it, and each of these is an instruction by itself. -/

namespace Easel

namespace Description

variable {l : Limits} {s s' mid next : Scene} {ts us rest rest' : List Token}

/-! ### Phrases are read in one way -/

theorem IsStatement.unique {st st' : Statement} (h : IsStatement .kept s ts st rest)
    (h' : IsStatement .kept s ts st' rest') : st = st' ∧ rest = rest' := by
  cases ts with
  | nil => cases h
  | cons t ts =>
    have hread : statement ⟨s, .nowhere⟩ t ts = .ok ⟨st, rest, Nat.lt_succ_of_lt h.shorter⟩ :=
      statement_eq_ok_iff.mpr h
    have hread' : statement ⟨s, .nowhere⟩ t ts = .ok ⟨st', rest', Nat.lt_succ_of_lt h'.shorter⟩ :=
      statement_eq_ok_iff.mpr h'
    have hsame := Except.ok.inj (hread.symm.trans hread')
    exact ⟨congrArg Reading.value hsame, congrArg Reading.rest hsame⟩

theorem IsCanvas.unique {size size' : Nat × Nat} (h : IsCanvas s ts size rest)
    (h' : IsCanvas s ts size' rest') : size = size' ∧ rest = rest' := by
  have hread : canvas ⟨s, .nowhere⟩ ts = .ok ⟨size, rest, h.shorter⟩ := canvas_eq_ok_iff.mpr h
  have hread' : canvas ⟨s, .nowhere⟩ ts = .ok ⟨size', rest', h'.shorter⟩ := canvas_eq_ok_iff.mpr h'
  have hsame := Except.ok.inj (hread.symm.trans hread')
  exact ⟨congrArg Reading.value hsame, congrArg Reading.rest hsame⟩

/-! ### Instructions in a row -/

theorem IsStatement.fresh {st : Statement} (h : IsStatement l s ts st rest) : s.Fresh st := by
  cases h with
  | shape _ _ _ hfresh _ _ =>
    refine ⟨?_, nofun⟩
    rintro _ (_ | ⟨_, ⟨⟩⟩)
    exact hfresh
  | color _ _ _ hfresh _ =>
    refine ⟨nofun, ?_⟩
    rintro _ (_ | ⟨_, ⟨⟩⟩)
    exact hfresh
  | fill _ _ _ _ => exact ⟨nofun, nofun⟩

/-- Tokens that are statements, each of which is read in the scene that those before it have made,
and lead from one scene to another. -/
inductive Leads (l : Limits) : Scene → List Token → List Statement → Scene → Prop
  | none {s : Scene} : Leads l s [] [] s
  | more {s next : Scene} {ts us : List Token} {st : Statement} {sts : List Statement}
      (hst : IsStatement l s ts st us) (hsts : Leads l (s.adding st) us sts next) :
      Leads l s ts (st :: sts) next

variable {st : Statement} {sts all : List Statement}

theorem IsStatement.leads (h : IsStatement l s ts st []) : Leads l s ts [st] (s.adding st) :=
  .more h .none

theorem Leads.append {more : List Statement} (h : Leads l s ts sts mid)
    (hmore : Leads l mid us more next) : Leads l s (ts ++ us) (sts ++ more) next := by
  induction h with
  | none => exact hmore
  | more hst _ ih => exact .more hst.append (ih hmore)

/-- What is read from tokens is read from the first of them and then from the others. -/
theorem Leads.split (h : Leads .kept s ts sts mid) (hall : Leads .kept s (ts ++ us) all next) :
    ∃ more, Leads .kept mid us more next := by
  induction h generalizing all with
  | none => exact ⟨all, hall⟩
  | @more s mid ts rest st sts hst hsts ih =>
    have happend : IsStatement .kept s (ts ++ us) st (rest ++ us) := hst.append
    generalize hboth : ts ++ us = both at happend hall
    cases hall with
    | none => cases happend
    | more hst' hmore =>
      obtain ⟨rfl, rfl⟩ := happend.unique hst'
      exact ih hmore

theorem Leads.unique (h : Leads .kept s ts sts next) (h' : Leads .kept s ts all s') :
    next = s' := by
  have hts : ts ++ [] = ts := List.append_nil ts
  rw [← hts] at h'
  obtain ⟨more, hmore⟩ := h.split h'
  cases hmore with
  | none => rfl
  | more hst => cases hst

theorem Leads.sound (h : Leads l s ts sts next) (hs : s.Sound) : next.Sound := by
  induction h with
  | none => exact hs
  | more hst _ ih => exact ih (hs.adding hst.fresh (hst.fits hs))

theorem carryOut_result_iff_leads [Keyword.Order] (stop : Position) (s : Scene) (ts : List Token) :
    (carryOut stop s ts).result = .ok next ↔ ∃ sts, Leads .kept s ts sts next := by
  induction hlength : ts.length using Nat.strongRecOn generalizing s ts with
  | ind length ih =>
  subst hlength
  cases ts with
  | nil =>
    rw [carryOut, Progress.result]
    constructor
    · intro h
      cases h
      exact ⟨[], .none⟩
    · rintro ⟨sts, hsts⟩
      cases hsts with
      | none => rfl
      | more hst => cases hst
  | cons t ts =>
    rw [result_carryOut, Except.bind_eq_ok_iff]
    simp only [statement_eq_ok_iff, Except.bind_eq_ok_iff]
    constructor
    · rintro ⟨⟨st, rest, hlt⟩, hst, mid, happly, hrest⟩
      obtain rfl := Except.ok.inj ((Scene.apply_eq_adding hst.fresh).symm.trans happly)
      obtain ⟨sts, hsts⟩ := (ih _ hlt _ rest rfl).mp hrest
      exact ⟨st :: sts, .more hst hsts⟩
    · rintro ⟨sts, hsts⟩
      cases hsts with
      | @more _ _ _ rest st _ hst hmore =>
        have hlt : rest.length < (t :: ts).length := Nat.lt_succ_of_lt hst.shorter
        exact ⟨⟨st, rest, hlt⟩, hst, _, Scene.apply_eq_adding hst.fresh,
          (ih _ hlt _ rest rfl).mpr ⟨_, hmore⟩⟩

/-- A description is a canvas and statements that lead to its scene. -/
theorem describes_iff : Describes .kept ts s ↔ ∃ width height us sts,
    IsCanvas (.blank 0 0) ts (width, height) us ∧ Leads .kept (.blank width height) us sts s := by
  constructor
  · intro h
    cases h with
    | @scene us width height sts hcanvas hsts =>
      have hblank : (Scene.ofStatements width height []).Reachable := .blank width height
      have hresult := (carryOut_result_iff .nowhere us hblank).mpr ⟨sts, hsts, rfl⟩
      obtain ⟨sts, hsts⟩ := (carryOut_result_iff_leads .nowhere _ us).mp hresult
      exact ⟨width, height, us, sts, hcanvas, hsts⟩
  · rintro ⟨width, height, us, sts, hcanvas, hsts⟩
    have hblank : (Scene.ofStatements width height []).Reachable := .blank width height
    have hresult : (carryOut .nowhere (.ofStatements width height []) us).result = .ok s :=
      (carryOut_result_iff_leads .nowhere _ us).mpr ⟨sts, hsts⟩
    obtain ⟨sts', hsts', rfl⟩ := (carryOut_result_iff .nowhere us hblank).mp hresult
    exact .scene hcanvas hsts'

theorem Describes.sound (h : Describes .kept ts s) : s.Sound := by
  obtain ⟨width, height, us, sts, -, hsts⟩ := describes_iff.mp h
  exact hsts.sound (Scene.sound_blank width height)

theorem Describes.append_iff (h : Describes .kept ts s) :
    Describes .kept (ts ++ us) next ↔ ∃ sts, Leads .kept s us sts next := by
  obtain ⟨width, height, rest, sts, hcanvas, hsts⟩ := describes_iff.mp h
  have hcanvas' : IsCanvas (.blank 0 0) (ts ++ us) (width, height) (rest ++ us) := hcanvas.append
  rw [describes_iff]
  constructor
  · rintro ⟨width', height', rest', all, hall, hleads⟩
    obtain ⟨hsize, rfl⟩ := hcanvas'.unique hall
    cases hsize
    exact hsts.split hleads
  · rintro ⟨more, hmore⟩
    exact ⟨width, height, rest ++ us, sts ++ more, hcanvas', hsts.append hmore⟩

theorem Describes.unique (h : Describes .kept ts s) (h' : Describes .kept ts s') : s = s' := by
  have hts : ts ++ [] = ts := List.append_nil ts
  rw [← hts] at h'
  obtain ⟨sts, hsts⟩ := h.append_iff.mp h'
  exact Leads.unique .none hsts

/-- Tokens that are the next instruction of a description: behind what is a description already,
they state one thing. -/
def IsNext (before ts : List Token) (st : Statement) : Prop :=
  ∃ s, Describes .kept before s ∧ IsStatement .kept s ts st []

/-- The statement of the next instruction of a description. -/
def next? [Keyword.Order] (before : List Token) : List Token → Option Statement
  | [] => none
  | t :: us =>
    (canvas ⟨.blank 0 0, .nowhere⟩ before).toOption.bind fun size =>
    (carryOut .nowhere (.blank size.value.1 size.value.2) size.rest).result.toOption.bind fun s =>
    (statement ⟨s, .nowhere⟩ t us).toOption.bind fun r =>
    if r.rest.isEmpty then some r.value else none

theorem isNext_of_next? [Keyword.Order] {before : List Token} (h : next? before ts = some st) :
    IsNext before ts st := by
  cases ts with
  | nil => cases h
  | cons t us =>
    simp only [next?, Option.bind_eq_some_iff, Except.toOption_eq_some_iff] at h
    obtain ⟨size, hcanvas, s, hcarry, r, hread, hlast⟩ := h
    obtain ⟨sts, hsts⟩ := (carryOut_result_iff_leads _ _ _).mp hcarry
    refine ⟨s, describes_iff.mpr ⟨_, _, _, sts, canvas_eq_ok_iff.mp hcanvas, hsts⟩, ?_⟩
    have hst := statement_eq_ok_iff.mp hread
    split at hlast
    · next hempty =>
      cases hlast
      rwa [List.isEmpty_iff.mp hempty] at hst
    · cases hlast

/-- The instructions of a description, one after the other. -/
theorem Leads.exists_instructions {before : List Token} (h : Leads .kept s ts sts next)
    (hs : Describes .kept before s) :
    ∃ parts : List (List Token), ts = parts.flatten ∧
      ∀ front part back, parts = front ++ part :: back →
        ∃ st, IsNext (before ++ front.flatten) part st := by
  induction h generalizing before with
  | none => exact ⟨[], rfl, fun front part back h => absurd h (by simp)⟩
  | @more s next ts us st sts hst hsts ih =>
    obtain ⟨first, rfl, hfirst⟩ := hst.takes.exists_eq_append
    have hfirst' := hs.append_iff.mpr ⟨_, hfirst.leads⟩
    obtain ⟨parts, rfl, hparts⟩ := ih hfirst'
    refine ⟨first :: parts, rfl, fun front part back hsplit => ?_⟩
    cases front with
    | nil =>
      cases hsplit
      refine ⟨st, s, ?_, hfirst⟩
      rw [List.flatten_nil, List.append_nil]
      exact hs
    | cons head front =>
      obtain ⟨rfl, hrest⟩ := List.cons.inj hsplit
      rw [List.flatten_cons, ← List.append_assoc]
      exact hparts front part back hrest

/-- What is accepted is a canvas with instructions behind it. -/
theorem Describes.exists_instructions (h : Describes .kept ts s) :
    ∃ (width height : Nat) (canvas : List Token) (parts : List (List Token)),
      ts = canvas ++ parts.flatten ∧ Describes .kept canvas (.blank width height) ∧
      ∀ front part back, parts = front ++ part :: back →
        ∃ st, IsNext (canvas ++ front.flatten) part st := by
  obtain ⟨width, height, us, sts, hcanvas, hsts⟩ := describes_iff.mp h
  obtain ⟨canvas, rfl, hcanvas'⟩ := hcanvas.takes.exists_eq_append
  have hblank : Describes .kept canvas (.blank width height) :=
    describes_iff.mpr ⟨width, height, [], [], hcanvas', .none⟩
  obtain ⟨parts, rfl, hparts⟩ := hsts.exists_instructions hblank
  exact ⟨width, height, canvas, parts, rfl, hblank, hparts⟩

end Description

end Easel

import Easel.Proofs.Description.Grammar

/-! Phrases of the grammar end by themselves. Each of them takes tokens of its own, and does not
look at those that follow: it is the same phrase whatever they are. -/

namespace Easel

namespace Description

variable {l : Limits} {s : Scene} {ts us rest : List Token}

section

variable {P Q : List Token → List Token → Prop} {t : Token}

/-- A phrase that takes some tokens, whatever follows them. -/
def Takes (P : List Token → List Token → Prop) (ts rest : List Token) : Prop :=
  ∃ phrase, ts = phrase ++ rest ∧ ∀ us, P (phrase ++ us) us

theorem Takes.imp (h : Takes P ts rest) (himp : ∀ us vs, P us vs → Q us vs) : Takes Q ts rest := by
  obtain ⟨phrase, hts, htakes⟩ := h
  exact ⟨phrase, hts, fun us => himp _ _ (htakes us)⟩

theorem Takes.andThen (h : Takes P ts us) (h' : Takes Q us rest) :
    Takes (fun vs ws => ∃ between, P vs between ∧ Q between ws) ts rest := by
  obtain ⟨first, rfl, hfirst⟩ := h
  obtain ⟨second, rfl, hsecond⟩ := h'
  refine ⟨first ++ second, (List.append_assoc _ _ _).symm, fun vs => ⟨second ++ vs, ?_, hsecond vs⟩⟩
  rw [List.append_assoc]
  exact hfirst _

theorem Takes.before (h : Takes P ts (t :: rest)) :
    Takes (fun us vs => P us (t :: vs)) ts rest := by
  obtain ⟨phrase, rfl, htakes⟩ := h
  refine ⟨phrase ++ [t], by rw [List.append_assoc, List.singleton_append], fun us => ?_⟩
  rw [List.append_assoc, List.singleton_append]
  exact htakes _

theorem Takes.behind (t : Token) (h : Takes P ts rest) :
    Takes (fun us vs => ∃ more, us = t :: more ∧ P more vs) (t :: ts) rest := by
  obtain ⟨phrase, rfl, htakes⟩ := h
  exact ⟨t :: phrase, rfl, fun us => ⟨_, rfl, htakes us⟩⟩

/-- Other tokens may follow. -/
theorem Takes.append (h : Takes P ts rest) (us : List Token) : P (ts ++ us) (rest ++ us) := by
  obtain ⟨phrase, rfl, htakes⟩ := h
  rw [List.append_assoc]
  exact htakes _

/-- A phrase takes the tokens that it takes when nothing follows, and no others. -/
theorem Takes.exists_eq_append (h : Takes P ts rest) :
    ∃ phrase, ts = phrase ++ rest ∧ P phrase [] := by
  obtain ⟨phrase, hts, htakes⟩ := h
  refine ⟨phrase, hts, ?_⟩
  have hnil := htakes []
  rwa [List.append_nil] at hnil

end

/-! ### The phrases of the grammar -/

mutual

theorem IsNumber.takes {ts rest : List Token} {x : Float} :
    IsNumber s ts x rest → Takes (IsNumber s · x ·) ts rest
  | .literal hkind hread => ⟨[_], rfl, fun _ => .literal hkind hread⟩
  | .coordinate hpoint hdot haxis hx =>
    hpoint.takes.before.before.imp fun _ _ hpoint => .coordinate hpoint hdot haxis hx

theorem IsPoint.takes {ts rest : List Token} {p : Point Float} :
    IsPoint s ts p rest → Takes (IsPoint s · p ·) ts rest
  | .pair hopen hx hy hclose => by
    refine ((hx.takes.andThen hy.takes.before).behind _).imp ?_
    rintro _ _ ⟨_, rfl, _, hx, hy⟩
    exact .pair hopen hx hy hclose
  | .landmark hshape hid hdot hmark hpoint =>
    ⟨[_, _, _], rfl, fun _ => .landmark hshape hid hdot hmark hpoint⟩
  | .expression hopen hoperator hoperation hclose => by
    refine ((hoperation.takes.before.behind _).behind _).imp ?_
    rintro _ _ ⟨_, rfl, _, rfl, hoperation⟩
    exact .expression hopen hoperator hoperation hclose

theorem IsOperation.takes {operator : Token} {ts rest : List Token} {p : Point Float} :
    IsOperation s operator ts p rest → Takes (IsOperation s operator · p ·) ts rest
  | .sum htext hpoints => hpoints.takes.imp fun _ _ hpoints => .sum htext hpoints
  | .difference htext hpoints => hpoints.takes.imp fun _ _ hpoints => .difference htext hpoints
  | .multiple htext hpoint hfactor => by
    refine (hpoint.takes.andThen hfactor.takes).imp ?_
    rintro _ _ ⟨_, hpoint, hfactor⟩
    exact .multiple htext hpoint hfactor
  | .quotient htext hpoint hdivisor hzero => by
    refine (hpoint.takes.andThen hdivisor.takes).imp ?_
    rintro _ _ ⟨_, hpoint, hdivisor⟩
    exact .quotient htext hpoint hdivisor hzero

theorem ArePoints.takes {ts rest : List Token} {p : Point Float} {ps : List (Point Float)} :
    ArePoints s ts p ps rest → Takes (ArePoints s · p ps ·) ts rest
  | .last hpoint => hpoint.takes.imp fun _ _ hpoint => .last hpoint
  | .more hpoint hmore => by
    refine (hpoint.takes.andThen hmore.takes).imp ?_
    rintro _ _ ⟨_, hpoint, hmore⟩
    exact .more hpoint hmore

end

theorem IsChannel.takes {x : Float} (h : IsChannel s ts x rest) :
    Takes (IsChannel s · x ·) ts rest :=
  h.1.takes.imp fun _ _ hx => ⟨hx, h.2⟩

theorem IsColor.takes {value : Color} (h : IsColor s ts value rest) :
    Takes (IsColor s · value ·) ts rest := by
  cases h with
  | channels hopen hred hgreen hblue hclose =>
    refine ((hred.takes.andThen (hgreen.takes.andThen hblue.takes.before)).behind _).imp ?_
    rintro _ _ ⟨_, rfl, _, hred, _, hgreen, hblue⟩
    exact .channels hopen hred hgreen hblue hclose
  | named hname hvalue => exact ⟨[_], rfl, fun _ => .named hname hvalue⟩

theorem IsShape.takes {id : Nat} (h : IsShape s ts id rest) : Takes (IsShape s · id ·) ts rest := by
  cases h with
  | named hname hid => exact ⟨[_], rfl, fun _ => .named hname hid⟩

theorem AreShapes.takes {ids : List Nat} (h : AreShapes s ts ids rest) :
    Takes (AreShapes s · ids ·) ts rest := by
  induction h with
  | last hshape => exact hshape.takes.imp fun _ _ hshape => .last hshape
  | more hshape _ ih =>
    refine (hshape.takes.andThen ih).imp ?_
    rintro _ _ ⟨_, hshape, hmore⟩
    exact .more hshape hmore

theorem IsForm.takes {k : Keyword} {form : Form Float} (h : IsForm s k ts form rest) :
    Takes (IsForm s k · form ·) ts rest := by
  cases h with
  | circle hcenter hradius =>
    refine (hcenter.takes.andThen hradius.takes).imp ?_
    rintro _ _ ⟨_, hcenter, hradius⟩
    exact .circle hcenter hradius
  | ellipse hcenter hmajor hminor =>
    refine (hcenter.takes.andThen (hmajor.takes.andThen hminor.takes)).imp ?_
    rintro _ _ ⟨_, hcenter, _, hmajor, hminor⟩
    exact .ellipse hcenter hmajor hminor
  | rectangle hcenter hwidth hheight =>
    refine (hcenter.takes.andThen (hwidth.takes.andThen hheight.takes)).imp ?_
    rintro _ _ ⟨_, hcenter, _, hwidth, hheight⟩
    exact .rectangle hcenter hwidth hheight
  | triangle h0 h1 h2 =>
    refine (h0.takes.andThen (h1.takes.andThen h2.takes)).imp ?_
    rintro _ _ ⟨_, h0, _, h1, h2⟩
    exact .triangle h0 h1 h2
  | shift hoffset htarget =>
    refine (hoffset.takes.andThen htarget.takes).imp ?_
    rintro _ _ ⟨_, hoffset, htarget⟩
    exact .shift hoffset htarget
  | rotate hdegrees hpivot htarget =>
    refine (hdegrees.takes.andThen (hpivot.takes.andThen htarget.takes)).imp ?_
    rintro _ _ ⟨_, hdegrees, _, hpivot, htarget⟩
    exact .rotate hdegrees hpivot htarget
  | union hopen hmembers hclose =>
    refine (hmembers.takes.before.behind _).imp ?_
    rintro _ _ ⟨_, rfl, hmembers⟩
    exact .union hopen hmembers hclose
  | difference hbase hsubtrahend =>
    refine (hbase.takes.andThen hsubtrahend.takes).imp ?_
    rintro _ _ ⟨_, hbase, hsubtrahend⟩
    exact .difference hbase hsubtrahend

theorem IsStatement.takes {st : Statement} (h : IsStatement l s ts st rest) :
    Takes (IsStatement l s · st ·) ts rest := by
  cases h with
  | shape hkeyword htext hname hfresh hform hrange =>
    refine ((hform.takes.behind _).behind _).imp ?_
    rintro _ _ ⟨_, rfl, _, rfl, hform⟩
    exact .shape hkeyword htext hname hfresh hform hrange
  | color hkeyword htext hname hfresh hvalue =>
    refine ((hvalue.takes.behind _).behind _).imp ?_
    rintro _ _ ⟨_, rfl, _, rfl, hvalue⟩
    exact .color hkeyword htext hname hfresh hvalue
  | fill hkeyword htext htarget hvalue =>
    refine ((htarget.takes.andThen hvalue.takes).behind _).imp ?_
    rintro _ _ ⟨_, rfl, _, htarget, hvalue⟩
    exact .fill hkeyword htext htarget hvalue

theorem IsStatement.append {st : Statement} (h : IsStatement l s ts st rest) :
    IsStatement l s (ts ++ us) st (rest ++ us) :=
  h.takes.append us

theorem IsDimension.takes {n : Nat} (h : IsDimension s ts n rest) :
    Takes (IsDimension s · n ·) ts rest := by
  cases h with
  | whole hx hsign hwhole hfits =>
    exact hx.takes.imp fun _ _ hx => .whole hx hsign hwhole hfits

theorem IsCanvas.takes {size : Nat × Nat} (h : IsCanvas s ts size rest) :
    Takes (IsCanvas s · size ·) ts rest := by
  cases h with
  | size hkeyword htext hwidth hheight hfits =>
    refine ((hwidth.takes.andThen hheight.takes).behind _).imp ?_
    rintro _ _ ⟨_, rfl, _, hwidth, hheight⟩
    exact .size hkeyword htext hwidth hheight hfits

theorem IsCanvas.append {size : Nat × Nat} (h : IsCanvas s ts size rest) :
    IsCanvas s (ts ++ us) size (rest ++ us) :=
  h.takes.append us

end Description

end Easel

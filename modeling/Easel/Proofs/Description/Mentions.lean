import Easel.Proofs.Description.Statements
import Easel.Proofs.Scene.Relocation

/-! What an instruction refers to. The names in it are those of shapes and, where a colour is
wanted, that of a colour; the names behind dots are landmarks and axes. An instruction can be read
wherever what it refers to is declared, and then it means the same, about the shapes at their places
there. -/

namespace Easel

namespace Description

/-- The names among tokens that do not stand directly behind a dot. -/
def referred (behindDot : Bool) : List Token → List String
  | [] => []
  | t :: ts =>
    (if t.kind = .name ∧ behindDot = false then [t.text] else []) ++
      referred (decide (t.kind = .dot)) ts

/-- The names of shapes in what stands for a colour. -/
def valueShapes : List Token → List String
  | [] => []
  | t :: ts => if t.kind = .name then [] else referred false (t :: ts)

/-- The name of a colour in what stands for a colour. -/
def valueColors : List Token → List String
  | [] => []
  | t :: _ => if t.kind = .name then [t.text] else []

/-- The names of shapes that an instruction mentions, other than the one that it declares. -/
def mentionedShapes : List Token → List String
  | keyword :: name :: rest =>
    if keyword.text = Keyword.color.text then valueShapes rest
    else if keyword.text = Keyword.fill.text then name.text :: valueShapes rest
    else referred false rest
  | _ => []

/-- The names of colours that an instruction mentions, other than the one that it declares. -/
def mentionedColors : List Token → List String
  | keyword :: _ :: rest =>
    if keyword.text = Keyword.color.text ∨ keyword.text = Keyword.fill.text then valueColors rest
    else []
  | _ => []

/-- None of the names is referred to. -/
def Avoids (names : List String) (ts : List Token) : Prop :=
  ∀ name ∈ referred false ts, name ∉ names

variable {xs ys : List String} {t dot mark : Token} {ts rest : List Token}

theorem Avoids.tail (h : Avoids xs (t :: ts)) (ht : t.kind ≠ .dot) : Avoids xs ts := by
  intro name hname
  refine h name (List.mem_append_right _ ?_)
  rw [decide_eq_false ht]
  exact hname

theorem Avoids.head (h : Avoids xs (t :: ts)) (ht : t.kind = .name) : t.text ∉ xs := by
  refine h t.text (List.mem_append_left _ ?_)
  rw [if_pos ⟨ht, rfl⟩]
  exact List.mem_singleton_self _

/-- Two tokens further on it does not matter whether the first of them is a dot. -/
theorem Avoids.behind (h : Avoids xs (dot :: mark :: ts)) (hmark : mark.kind ≠ .dot) :
    Avoids xs ts := by
  intro name hname
  refine h name (List.mem_append_right _ (List.mem_append_right _ ?_))
  rw [decide_eq_false hmark]
  exact hname

end Description

namespace Scene

variable {s s' : Scene} {place : Nat → Nat} {xs ys : List String}

/-- What `s` answers when it is asked about names other than `xs` and `ys`, `s'` answers as well,
about shapes at other places. -/
structure AnsweredBy (place : Nat → Nat) (xs ys : List String) (s s' : Scene) : Prop where
  shape : ∀ name, name ∉ xs → ∀ id, s.shape? name = some id → s'.shape? name = some (place id)
  landmark : ∀ name, name ∉ xs → ∀ id, s.shape? name = some id → ∀ mark,
    s'.drawing.landmark? (place id) mark = s.drawing.landmark? id mark
  color : ∀ name, name ∉ ys → ∀ value, s.color? name = some value → s'.color? name = some value

/-- A scene with further names answers everything that one without them answers. -/
theorem Includes.answeredBy (h : s.Includes place xs ys s') (hs : s.Sound) (hs' : s'.Sound) :
    s.AnsweredBy place [] [] s' where
  shape name _ id hid := by
    have hname : name ∉ xs := fun hmem => by
      rw [h.noShape name hmem] at hid
      cases hid
    rw [h.shape name hname, hid, Option.map_some]
  landmark _ _ _ hid mark :=
    h.forms.landmark?_eq hs.layered hs'.layered (hs.shape?_lt hid) mark
  color name _ value hvalue := by
    have hname : name ∉ ys := fun hmem => by
      rw [h.noColor name hmem] at hvalue
      cases hvalue
    rw [h.color name hname, hvalue]

/-- A scene without some names answers everything that one with them answers about others. -/
theorem Includes.answers (h : s.Includes id xs ys s') (hs : s.Sound) (hs' : s'.Sound) :
    s'.AnsweredBy id xs ys s := by
  have hshape : ∀ name, name ∉ xs → ∀ i, s'.shape? name = some i → s.shape? name = some i := by
    intro name hname i hi
    rw [h.shape name hname, Option.map_id_fun] at hi
    exact hi
  exact {
    shape := hshape
    landmark := fun name hname i hi mark =>
      (h.forms.landmark?_eq hs.layered hs'.layered
        (hs.shape?_lt (hshape name hname i hi)) mark).symm
    color := fun name hname value hvalue => (h.color name hname).symm.trans hvalue }

end Scene

namespace Description

variable {l : Limits} {s s' : Scene} {place : Nat → Nat} {xs ys : List String}

/-! ### Phrases in another scene -/

mutual

theorem IsNumber.carried (h : s.AnsweredBy place xs ys s') {ts rest : List Token} {x : Float} :
    IsNumber s ts x rest → Avoids xs ts → IsNumber s' ts x rest ∧ Avoids xs rest
  | .literal hkind hread, havoids => ⟨.literal hkind hread, havoids.tail (by simp [hkind])⟩
  | .coordinate hpoint hdot haxis hx, havoids => by
    obtain ⟨hpoint', hrest⟩ := hpoint.carried h havoids
    exact ⟨.coordinate hpoint' hdot haxis hx, hrest.behind (by simp [haxis])⟩

theorem IsPoint.carried (h : s.AnsweredBy place xs ys s') {ts rest : List Token} {p : Point Float} :
    IsPoint s ts p rest → Avoids xs ts → IsPoint s' ts p rest ∧ Avoids xs rest
  | .pair hopen hx hy hclose, havoids => by
    obtain ⟨hx', hmore⟩ := hx.carried h (havoids.tail (by simp [hopen]))
    obtain ⟨hy', hrest⟩ := hy.carried h hmore
    exact ⟨.pair hopen hx' hy' hclose, hrest.tail (by simp [hclose])⟩
  | .landmark hshape hid hdot hmark hpoint, havoids => by
    have hname := havoids.head hshape
    have hpoint' := (h.landmark _ hname _ hid _).trans hpoint
    have hrest := (havoids.tail (by simp [hshape])).behind (by simp [hmark])
    exact ⟨.landmark hshape (h.shape _ hname _ hid) hdot hmark hpoint', hrest⟩
  | .expression hopen hoperator hoperation hclose, havoids => by
    have hinside := (havoids.tail (by simp [hopen])).tail (by simp [hoperator])
    obtain ⟨hoperation', hrest⟩ := hoperation.carried h hinside
    exact ⟨.expression hopen hoperator hoperation' hclose, hrest.tail (by simp [hclose])⟩

theorem IsOperation.carried (h : s.AnsweredBy place xs ys s') {operator : Token}
    {ts rest : List Token} {p : Point Float} :
    IsOperation s operator ts p rest → Avoids xs ts →
      IsOperation s' operator ts p rest ∧ Avoids xs rest
  | .sum htext hpoints, havoids => by
    obtain ⟨hpoints', hrest⟩ := hpoints.carried h havoids
    exact ⟨.sum htext hpoints', hrest⟩
  | .difference htext hpoints, havoids => by
    obtain ⟨hpoints', hrest⟩ := hpoints.carried h havoids
    exact ⟨.difference htext hpoints', hrest⟩
  | .multiple htext hpoint hfactor, havoids => by
    obtain ⟨hpoint', hmore⟩ := hpoint.carried h havoids
    obtain ⟨hfactor', hrest⟩ := hfactor.carried h hmore
    exact ⟨.multiple htext hpoint' hfactor', hrest⟩
  | .quotient htext hpoint hdivisor hzero, havoids => by
    obtain ⟨hpoint', hmore⟩ := hpoint.carried h havoids
    obtain ⟨hdivisor', hrest⟩ := hdivisor.carried h hmore
    exact ⟨.quotient htext hpoint' hdivisor' hzero, hrest⟩

theorem ArePoints.carried (h : s.AnsweredBy place xs ys s') {ts rest : List Token} {p : Point Float}
    {ps : List (Point Float)} :
    ArePoints s ts p ps rest → Avoids xs ts → ArePoints s' ts p ps rest ∧ Avoids xs rest
  | .last hpoint, havoids => by
    obtain ⟨hpoint', hrest⟩ := hpoint.carried h havoids
    exact ⟨.last hpoint', hrest⟩
  | .more hpoint hmore, havoids => by
    obtain ⟨hpoint', hothers⟩ := hpoint.carried h havoids
    obtain ⟨hmore', hrest⟩ := hmore.carried h hothers
    exact ⟨.more hpoint' hmore', hrest⟩

end

section

variable {ts rest : List Token}

theorem IsChannel.carried (h : s.AnsweredBy place xs ys s') {x : Float}
    (hx : IsChannel s ts x rest) (havoids : Avoids xs ts) :
    IsChannel s' ts x rest ∧ Avoids xs rest := by
  obtain ⟨hx', hrest⟩ := hx.1.carried h havoids
  exact ⟨⟨hx', hx.2⟩, hrest⟩

theorem IsColor.carried (h : s.AnsweredBy place xs ys s') {value : Color}
    (hvalue : IsColor s ts value rest) (hshapes : ∀ name ∈ valueShapes ts, name ∉ xs)
    (hcolors : ∀ name ∈ valueColors ts, name ∉ ys) : IsColor s' ts value rest := by
  cases hvalue with
  | channels hopen hred hgreen hblue hclose =>
    simp only [valueShapes, hopen, reduceCtorEq, if_false] at hshapes
    have havoids := Avoids.tail hshapes (by simp [hopen])
    obtain ⟨hred', havoids⟩ := hred.carried h havoids
    obtain ⟨hgreen', havoids⟩ := hgreen.carried h havoids
    obtain ⟨hblue', -⟩ := hblue.carried h havoids
    exact .channels hopen hred' hgreen' hblue' hclose
  | named hname hvalue =>
    refine .named hname (h.color _ (hcolors _ ?_) _ hvalue)
    simp [valueColors, hname]

theorem IsShape.carried (h : s.AnsweredBy place xs ys s') {id : Nat} (hid : IsShape s ts id rest)
    (havoids : Avoids xs ts) : IsShape s' ts (place id) rest ∧ Avoids xs rest := by
  cases hid with
  | named hname hid =>
    exact ⟨.named hname (h.shape _ (havoids.head hname) _ hid), havoids.tail (by simp [hname])⟩

theorem AreShapes.carried (h : s.AnsweredBy place xs ys s') {ids : List Nat}
    (hids : AreShapes s ts ids rest) (havoids : Avoids xs ts) :
    AreShapes s' ts (ids.map place) rest ∧ Avoids xs rest := by
  induction hids with
  | last hshape =>
    obtain ⟨hshape', hrest⟩ := hshape.carried h havoids
    exact ⟨.last hshape', hrest⟩
  | more hshape _ ih =>
    obtain ⟨hshape', hothers⟩ := hshape.carried h havoids
    obtain ⟨hmore', hrest⟩ := ih hothers
    exact ⟨.more hshape' hmore', hrest⟩

theorem IsForm.carried (h : s.AnsweredBy place xs ys s') {k : Keyword} {form : Form Float}
    (hform : IsForm s k ts form rest) (havoids : Avoids xs ts) :
    IsForm s' k ts (form.relocate place) rest := by
  cases hform with
  | circle hcenter hradius =>
    obtain ⟨hcenter', havoids⟩ := hcenter.carried h havoids
    exact .circle hcenter' (hradius.carried h havoids).1
  | ellipse hcenter hmajor hminor =>
    obtain ⟨hcenter', havoids⟩ := hcenter.carried h havoids
    obtain ⟨hmajor', havoids⟩ := hmajor.carried h havoids
    exact .ellipse hcenter' hmajor' (hminor.carried h havoids).1
  | rectangle hcenter hwidth hheight =>
    obtain ⟨hcenter', havoids⟩ := hcenter.carried h havoids
    obtain ⟨hwidth', havoids⟩ := hwidth.carried h havoids
    exact .rectangle hcenter' hwidth' (hheight.carried h havoids).1
  | triangle h0 h1 h2 =>
    obtain ⟨h0', havoids⟩ := h0.carried h havoids
    obtain ⟨h1', havoids⟩ := h1.carried h havoids
    exact .triangle h0' h1' (h2.carried h havoids).1
  | shift hoffset htarget =>
    obtain ⟨hoffset', havoids⟩ := hoffset.carried h havoids
    exact .shift hoffset' (htarget.carried h havoids).1
  | rotate hdegrees hpivot htarget =>
    obtain ⟨hdegrees', havoids⟩ := hdegrees.carried h havoids
    obtain ⟨hpivot', havoids⟩ := hpivot.carried h havoids
    exact .rotate hdegrees' hpivot' (htarget.carried h havoids).1
  | union hopen hmembers hclose =>
    obtain ⟨hmembers', -⟩ := hmembers.carried h (havoids.tail (by simp [hopen]))
    exact .union hopen hmembers' hclose
  | difference hbase hsubtrahend =>
    obtain ⟨hbase', havoids⟩ := hbase.carried h havoids
    exact .difference hbase' (hsubtrahend.carried h havoids).1

/-! ### Instructions in another scene -/

theorem admit_relocate {form : Form Float} (h : l.Admit form) : l.Admit (form.relocate place) := by
  cases form <;> exact h

theorem IsForm.keyword_ne {k : Keyword} {form : Form Float} (h : IsForm s k ts form rest) :
    k ≠ .color ∧ k ≠ .fill := by
  cases h <;> exact ⟨nofun, nofun⟩

/-- The declaration of a shape mentions what the tokens of its form refer to. -/
theorem IsForm.mentionedShapes_eq {k : Keyword} {form : Form Float} (h : IsForm s k ts form rest)
    {keyword name : Token} (htext : keyword.text = k.text) :
    mentionedShapes (keyword :: name :: ts) = referred false ts := by
  obtain ⟨hcolor, hfill⟩ := h.keyword_ne
  have hcolor : keyword.text ≠ Keyword.color.text :=
    fun heq => hcolor (Keyword.text_injective (htext.symm.trans heq))
  have hfill : keyword.text ≠ Keyword.fill.text :=
    fun heq => hfill (Keyword.text_injective (htext.symm.trans heq))
  rw [mentionedShapes, if_neg hcolor, if_neg hfill]

/-- An instruction reads the same in a scene that answers what it asks, about the shapes at their
places there, if the name that it declares is new there as well. -/
theorem IsStatement.carried (h : s.AnsweredBy place xs ys s') {st : Statement}
    (hst : IsStatement l s ts st rest) (hshapes : ∀ name ∈ mentionedShapes ts, name ∉ xs)
    (hcolors : ∀ name ∈ mentionedColors ts, name ∉ ys) (hfresh : s'.Fresh st) :
    IsStatement l s' ts (st.relocate place) rest := by
  cases hst with
  | @shape keyword name k ts rest form hkeyword htext hname _ hform hrange =>
    rw [hform.mentionedShapes_eq htext] at hshapes
    have hnew : s'.shape? name.text = none := hfresh.1 _ List.mem_cons_self
    exact .shape hkeyword htext hname hnew (hform.carried h hshapes) (admit_relocate hrange)
  | @color keyword name ts rest value hkeyword htext hname _ hvalue =>
    rw [mentionedShapes, if_pos htext] at hshapes
    rw [mentionedColors, if_pos (.inl htext)] at hcolors
    have hnew : s'.color? name.text = none := hfresh.2 _ List.mem_cons_self
    exact .color hkeyword htext hname hnew (hvalue.carried h hshapes hcolors)
  | @fill keyword ts us rest target value hkeyword htext htarget hvalue =>
    cases htarget with
    | @named name _ _ hname hid =>
      have hcolor : keyword.text ≠ Keyword.color.text := by
        rw [htext]
        decide
      rw [mentionedShapes, if_neg hcolor, if_pos htext, List.forall_mem_cons] at hshapes
      rw [mentionedColors, if_pos (.inr htext)] at hcolors
      have htarget' : IsShape s' (name :: us) (place target) us :=
        .named hname (h.shape _ hshapes.1 _ hid)
      exact .fill hkeyword htext htarget' (hvalue.carried h hshapes.2 hcolors)

end

/-! ### What is mentioned is declared -/

/-- The shapes that are referred to in front of `rest` are declared. -/
def Knows (s : Scene) (ts rest : List Token) : Prop :=
  ∀ name ∈ referred false ts, (s.shape? name).isSome = true ∨ name ∈ referred false rest

namespace Knows

variable {us : List Token}

theorem trans (h : Knows s ts us) (h' : Knows s us rest) : Knows s ts rest := by
  intro name hname
  rcases h name hname with hknown | hmore
  · exact .inl hknown
  · exact h' name hmore

theorem skip (hname : t.kind ≠ .name) (hdot : t.kind ≠ .dot) : Knows s (t :: rest) rest := by
  intro name hmem
  rw [referred, if_neg fun h => hname h.1, decide_eq_false hdot] at hmem
  exact .inr hmem

theorem named {id : Nat} (hname : t.kind = .name) (hid : s.shape? t.text = some id) :
    Knows s (t :: rest) rest := by
  intro name hmem
  rw [referred, if_pos ⟨hname, rfl⟩, decide_eq_false (by simp [hname])] at hmem
  rcases List.mem_cons.mp hmem with rfl | hmore
  · exact .inl (by rw [hid, Option.isSome_some])
  · exact .inr hmore

/-- A name behind a dot is not that of a shape. -/
theorem behindDot (hdot : dot.kind = .dot) (hmark : mark.kind = .name) :
    Knows s (dot :: mark :: rest) rest := by
  intro name hmem
  rw [referred, if_neg (by simp [hdot]), referred, if_neg (by simp [hdot]),
    decide_eq_false (by simp [hmark])] at hmem
  exact .inr hmem

end Knows

mutual

theorem IsNumber.knows {ts rest : List Token} {x : Float} :
    IsNumber s ts x rest → Knows s ts rest
  | .literal hkind _ => .skip (by simp [hkind]) (by simp [hkind])
  | .coordinate hpoint hdot haxis _ => hpoint.knows.trans (.behindDot hdot haxis)

theorem IsPoint.knows {ts rest : List Token} {p : Point Float} :
    IsPoint s ts p rest → Knows s ts rest
  | .pair hopen hx hy hclose =>
    (Knows.skip (by simp [hopen]) (by simp [hopen])).trans
      (hx.knows.trans (hy.knows.trans (.skip (by simp [hclose]) (by simp [hclose]))))
  | .landmark hshape hid hdot hmark _ => (Knows.named hshape hid).trans (.behindDot hdot hmark)
  | .expression hopen hoperator hoperation hclose =>
    (Knows.skip (by simp [hopen]) (by simp [hopen])).trans
      ((Knows.skip (by simp [hoperator]) (by simp [hoperator])).trans
        (hoperation.knows.trans (.skip (by simp [hclose]) (by simp [hclose]))))

theorem IsOperation.knows {operator : Token} {ts rest : List Token} {p : Point Float} :
    IsOperation s operator ts p rest → Knows s ts rest
  | .sum _ hpoints => hpoints.knows
  | .difference _ hpoints => hpoints.knows
  | .multiple _ hpoint hfactor => hpoint.knows.trans hfactor.knows
  | .quotient _ hpoint hdivisor _ => hpoint.knows.trans hdivisor.knows

theorem ArePoints.knows {ts rest : List Token} {p : Point Float} {ps : List (Point Float)} :
    ArePoints s ts p ps rest → Knows s ts rest
  | .last hpoint => hpoint.knows
  | .more hpoint hmore => hpoint.knows.trans hmore.knows

end

section

variable {ts rest : List Token}

theorem IsShape.knows {id : Nat} (h : IsShape s ts id rest) : Knows s ts rest := by
  cases h with
  | named hname hid => exact .named hname hid

theorem AreShapes.knows {ids : List Nat} (h : AreShapes s ts ids rest) : Knows s ts rest := by
  induction h with
  | last hshape => exact hshape.knows
  | more hshape _ ih => exact hshape.knows.trans ih

theorem IsForm.knows {k : Keyword} {form : Form Float} (h : IsForm s k ts form rest) :
    Knows s ts rest := by
  cases h with
  | circle hcenter hradius => exact hcenter.knows.trans hradius.knows
  | ellipse hcenter hmajor hminor =>
    exact hcenter.knows.trans (hmajor.knows.trans hminor.knows)
  | rectangle hcenter hwidth hheight =>
    exact hcenter.knows.trans (hwidth.knows.trans hheight.knows)
  | triangle h0 h1 h2 => exact h0.knows.trans (h1.knows.trans h2.knows)
  | shift hoffset htarget => exact hoffset.knows.trans htarget.knows
  | rotate hdegrees hpivot htarget =>
    exact hdegrees.knows.trans (hpivot.knows.trans htarget.knows)
  | union hopen hmembers hclose =>
    exact (Knows.skip (by simp [hopen]) (by simp [hopen])).trans
      (hmembers.knows.trans (.skip (by simp [hclose]) (by simp [hclose])))
  | difference hbase hsubtrahend => exact hbase.knows.trans hsubtrahend.knows

/-- All that the declaration of a shape mentions is declared before, so the shape itself is not. -/
theorem IsStatement.not_mentioned {name : String} {position : Position} {form : Form Float}
    (h : IsStatement l s ts (.shape name position form) []) : name ∉ mentionedShapes ts := by
  cases h with
  | @shape keyword name k ts _ form _ htext _ hfresh hform _ =>
    rw [hform.mentionedShapes_eq htext]
    intro hmem
    rcases hform.knows _ hmem with hknown | hmore
    · rw [hfresh] at hknown
      cases hknown
    · cases hmore

end

end Description

end Easel

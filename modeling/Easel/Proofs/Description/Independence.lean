import Easel.Proofs.Description.Instructions
import Easel.Proofs.Description.Mentions
import Easel.Proofs.Description.Stepping

/-! Instructions that can trade places, and declarations that can be left out. Either changes the
places of the shapes that are declared behind it and nothing else that a picture shows, so what
follows is read as before, about the same shapes at their new places. -/

namespace Easel

open Description Indexed

variable {s s' next : Scene} {place : Nat → Nat} {xs ys : List String} {ts before : List Token}
  {st : Statement} {sts : List Statement}

namespace Description

/-- Instructions that are read in a scene are read in one that has more shapes and colours as well,
if they declare none of these, and then they lead to scenes that differ by no more than that. -/
theorem Leads.carried (h : Leads .kept s ts sts next) (he : s.Extends place xs ys s')
    (hs : s.Sound) (hs' : s'.Sound)
    (hapart : ∀ st ∈ sts, (∀ name ∈ st.shapeNames, name ∉ xs) ∧ ∀ name ∈ st.colorNames, name ∉ ys) :
    ∃ next', Leads .kept s' ts (sts.map (Statement.relocate place)) next' ∧
      next.Extends place xs ys next' := by
  induction h generalizing s' with
  | none => exact ⟨s', .none, he⟩
  | @more s next ts us st sts hst _ ih =>
    obtain ⟨⟨hxs, hys⟩, hmore⟩ := List.forall_mem_cons.mp hapart
    have hst' : IsStatement .kept s' ts (st.relocate place) us :=
      hst.carried (he.answeredBy hs hs') (fun _ _ => List.not_mem_nil) (fun _ _ => List.not_mem_nil)
        (he.stays_fresh hst.fresh hxs hys)
    have hfits := hst.fits hs
    obtain ⟨next', hleads, hnext⟩ := ih (he.adding hs hs' hfits hxs hys)
      (hs.adding hst.fresh hfits) (hs'.adding hst'.fresh (hst'.fits hs')) hmore
    exact ⟨next', .more hst' hleads, hnext⟩

/-- A name that is new in the end has been new all along, and no statement declares it. -/
theorem Leads.fresh (h : Leads .kept s ts sts next) (hs : s.Sound) (hst : next.Fresh st) :
    s.Fresh st ∧ ∀ other ∈ sts, (∀ name ∈ other.shapeNames, name ∉ st.shapeNames) ∧
      ∀ name ∈ other.colorNames, name ∉ st.colorNames := by
  induction h with
  | none => exact ⟨hst, nofun⟩
  | more hother _ ih =>
    obtain ⟨hfresh, hapart⟩ := ih (hs.adding hother.fresh (hother.fits hs)) hst
    exact ⟨(Scene.includes_adding hs hother.fresh).fresh hfresh,
      List.forall_mem_cons.mpr ⟨hfresh.apart hs, hapart⟩⟩

/-- The scene behind the next instruction is the scene before it with what it adds. -/
theorem Describes.adding (h : Describes .kept before s) (hst : IsStatement .kept s ts st []) :
    Describes .kept (before ++ ts) (s.adding st) :=
  h.append_iff.mpr ⟨_, hst.leads⟩

variable {first second after : List Token} {i j : Statement}

/-- Two instructions, the second of which mentions nothing that the first declares, can trade places
unless both of them fill a shape. -/
theorem Describes.exchange (h : Describes .kept (before ++ first ++ second ++ after) s)
    (hfirst : IsNext before first i) (hsecond : IsNext (before ++ first) second j)
    (hfills : ¬(i.isFill ∧ j.isFill))
    (hshapes : ∀ name ∈ i.shapeNames, name ∉ mentionedShapes second)
    (hcolors : ∀ name ∈ i.colorNames, name ∉ mentionedColors second) :
    ∃ place s', Describes .kept (before ++ second ++ first ++ after) s' ∧
      s.Extends place [] [] s' := by
  obtain ⟨start, hstart, hi⟩ := hfirst
  obtain ⟨mid, hmid, hj⟩ := hsecond
  obtain rfl := hmid.unique (hstart.adding hi)
  have hsound := hstart.sound
  have hincludes := Scene.includes_adding hsound hi.fresh
  -- The second instruction is read without the first one before it.
  have hj' : IsStatement .kept start second j [] := by
    have hcarried := hj.carried (hincludes.answers hsound hmid.sound)
      (fun name hmentioned hname => hshapes name hname hmentioned)
      (fun name hmentioned hname => hcolors name hname hmentioned) (hincludes.fresh hj.fresh)
    rwa [Statement.relocate_id] at hcarried
  have hsecond := hstart.adding hj'
  -- The first one is read with the second one before it.
  obtain ⟨hapart, hapart'⟩ := hj.fresh.apart hsound
  have hincludes' := Scene.includes_adding hsound hj'.fresh
  have hi' : IsStatement .kept (start.adding j) first i [] := by
    have hcarried := hi.carried (hincludes'.answeredBy hsound hsecond.sound)
      (fun _ _ => List.not_mem_nil) (fun _ _ => List.not_mem_nil)
      (hincludes'.stays_fresh hi.fresh hapart hapart')
    rwa [Statement.relocate_id] at hcarried
  obtain ⟨place, hextends⟩ := Scene.exists_extends_exchange hsound (hi.fits hsound)
    (hj'.fits hsound) hi.fresh hj'.fresh hapart hapart' hfills
  obtain ⟨sts, hsts⟩ := (hmid.adding hj).append_iff.mp h
  obtain ⟨s', hsts', hs'⟩ := hsts.carried hextends (hmid.adding hj).sound
    (hsecond.adding hi').sound fun _ _ => ⟨fun _ _ => List.not_mem_nil, fun _ _ => List.not_mem_nil⟩
  exact ⟨place, s', (hsecond.adding hi').append_iff.mpr ⟨_, hsts'⟩, hs'⟩

/-- A declaration whose name is declared nowhere else can be put between two instructions. -/
theorem Describes.insert (h : Describes .kept (before ++ after) s) (hnext : IsNext before ts st)
    (hdeclares : st.isFill = false) (hfresh : s.Fresh st) :
    ∃ place s', Describes .kept (before ++ ts ++ after) s' ∧
      s.Extends place st.shapeNames st.colorNames s' := by
  obtain ⟨start, hstart, hst⟩ := hnext
  have hsound := hstart.sound
  obtain ⟨sts, hsts⟩ := hstart.append_iff.mp h
  obtain ⟨place, hextends⟩ := Scene.exists_extends_adding hsound hst.fresh hdeclares
  have hadding := hstart.adding hst
  obtain ⟨s', hsts', hs'⟩ := hsts.carried hextends hsound hadding.sound (hsts.fresh hsound hfresh).2
  exact ⟨place, s', hadding.append_iff.mpr ⟨_, hsts'⟩, hs'⟩

end Description

namespace Scene

variable {file file' : String} {tokens tokens' : List Token}

/-- Tokens with the kinds and the texts of a description are accepted, with its picture. -/
theorem exists_build?_of_describes [Keyword.Order] (h : Describes .kept ts s)
    (hlexemes : (content tokens).map Token.lexeme = ts.map Token.lexeme) (file : String) :
    ∃ s', build? file tokens = .ok s' ∧ s'.SamePictures s := by
  have hkinds : ∀ t ∈ ts, t.kind ≠ .endOfFile := by
    intro t ht
    obtain ⟨u, hu, hlexeme⟩ := List.mem_map.mp (hlexemes ▸ List.mem_map_of_mem ht)
    have hkind : u.kind = t.kind := congrArg Prod.fst hlexeme
    exact hkind ▸ kind_of_mem_content u hu
  have hcontent : content ts = ts := by
    refine content_eq_self (List.find?_eq_none.mpr fun t ht => ?_)
    simpa [Token.isEnd] using hkinds t ht
  have hread : (read ts).result = .ok s := (read_result_iff ts).mpr (hcontent.symm ▸ h)
  have halike : AreAlike (fun _ _ => True) (content ts) (content tokens) := by
    rw [hcontent]
    have hplaces := areAlike_append hlexemes.symm [] []
    exact hplaces.imp fun t u htu => ⟨htu.kind, htu.text, trivial⟩
  obtain ⟨s', hresult, hs'⟩ := (agree_read trivial halike).exists_ok hread
  refine ⟨s', ?_, hs'.samePictures.symm⟩
  rw [build?, ofTokens?, hresult]
  rfl

variable {first second after : List Token} {i j : Statement}

/-- Two instructions of an accepted description, next to one another and not both of them for
filling a shape, can trade places if the second one mentions no shape and no colour that the first
one declares: what comes out is accepted and has the same pictures. -/
theorem build?_exchange [Keyword.Order] (h : build? file tokens = .ok s)
    (hcontent : content tokens = before ++ first ++ second ++ after)
    (hfirst : IsNext before first i) (hsecond : IsNext (before ++ first) second j)
    (hfills : ¬(i.isFill ∧ j.isFill))
    (hshapes : ∀ name ∈ i.shapeNames, name ∉ mentionedShapes second)
    (hcolors : ∀ name ∈ i.colorNames, name ∉ mentionedColors second)
    (hlexemes : (content tokens').map Token.lexeme =
      (before ++ second ++ first ++ after).map Token.lexeme) (file' : String) :
    ∃ s', build? file' tokens' = .ok s' ∧ s'.SamePictures s := by
  have hdescribes := (build_iff_describes_kept file).mp h
  rw [hcontent] at hdescribes
  obtain ⟨place, other, hother, hextends⟩ :=
    hdescribes.exchange hfirst hsecond hfills hshapes hcolors
  obtain ⟨s', hs', hpictures⟩ := exists_build?_of_describes hother hlexemes file'
  exact ⟨s', hs', hpictures.trans (hextends.samePictures hdescribes.sound hother.sound)⟩

/-- A canvas with a disc on it. -/
def discOnCanvas : List Token :=
  [(.name, "size"), (.number, "2"), (.number, "2"), (.name, "circ"), (.name, "a"),
    (.openBrace, "\x7b"), (.number, "0"), (.number, "0"), (.closeBrace, "\x7d"),
    (.number, "1")].map fun (kind, text) => ⟨kind, text, .nowhere⟩

/-- A second disc around the rim of the first one. -/
def discOnRim : List Token :=
  [(.name, "circ"), (.name, "b"), (.name, "a"), (.dot, "."), (.name, "e"),
    (.number, "1")].map fun (kind, text) => ⟨kind, text, .nowhere⟩

/-- The first disc moved to another place. -/
def shiftedDisc : List Token :=
  [(.name, "shift"), (.name, "d"), (.openBrace, "\x7b"), (.number, "1"), (.number, "0"),
    (.closeBrace, "\x7d"), (.name, "a")].map fun (kind, text) => ⟨kind, text, .nowhere⟩

/-- The filling of the first disc. -/
def filledDisc : List Token :=
  [(.name, "fill"), (.name, "a"), (.openBrace, "\x7b"), (.number, "1"), (.number, "0"),
    (.number, "0"), (.closeBrace, "\x7d")].map fun (kind, text) => ⟨kind, text, .nowhere⟩

theorem discs_exchanged :
    ∃ s s', build? "discs.paint" (discOnCanvas ++ discOnRim ++ shiftedDisc ++ filledDisc) = .ok s ∧
      build? "discs.paint" (discOnCanvas ++ shiftedDisc ++ discOnRim ++ filledDisc) = .ok s' ∧
      s'.SamePictures s := by
  have hbuild : (build? "discs.paint"
      (discOnCanvas ++ discOnRim ++ shiftedDisc ++ filledDisc)).toOption.isSome = true := by
    decide +kernel
  have hfirst : (next? discOnCanvas discOnRim).any
      (fun i => i.shapeNames = ["b"] ∧ i.colorNames = [] ∧ i.isFill = false) = true := by
    decide +kernel
  have hsecond : (next? (discOnCanvas ++ discOnRim) shiftedDisc).isSome = true := by
    decide +kernel
  obtain ⟨s, hs⟩ := Option.isSome_iff_exists.mp hbuild
  obtain ⟨i, hi, hdeclares⟩ := (Option.any_eq_true _ _).mp hfirst
  obtain ⟨hshapes, hcolors, hfill⟩ := of_decide_eq_true hdeclares
  obtain ⟨j, hj⟩ := Option.isSome_iff_exists.mp hsecond
  have hok := Except.toOption_eq_some_iff.mp hs
  have hmentioned : ∀ name ∈ i.shapeNames, name ∉ mentionedShapes shiftedDisc := by
    rw [hshapes]
    decide
  have hmentioned' : ∀ name ∈ i.colorNames, name ∉ mentionedColors shiftedDisc := by
    rw [hcolors]
    decide
  have hfills : ¬(i.isFill ∧ j.isFill) := by
    rw [hfill]
    exact fun h => Bool.noConfusion h.1
  obtain ⟨s', hs', hpictures⟩ := build?_exchange hok (content_eq_self (by decide))
    (isNext_of_next? hi) (isNext_of_next? hj) hfills hmentioned hmentioned'
    (congrArg _ (content_eq_self (by decide))) "discs.paint"
  exact ⟨s, s', hok, hs', hpictures⟩

/-- A declaration that would be accepted at some place between the instructions of an accepted
description, under a name that is not declared anywhere in it, can be put there: what comes out is
accepted and has the same pictures. -/
theorem build?_insert [Keyword.Order] (h : build? file tokens = .ok s)
    (hcontent : content tokens = before ++ after)
    (hnext : IsNext before ts st) (hdeclares : st.isFill = false) (hfresh : s.Fresh st)
    (hlexemes : (content tokens').map Token.lexeme = (before ++ ts ++ after).map Token.lexeme)
    (file' : String) :
    ∃ s', build? file' tokens' = .ok s' ∧ s'.SamePictures s := by
  have hdescribes := (build_iff_describes_kept file).mp h
  rw [hcontent] at hdescribes
  obtain ⟨place, other, hother, hextends⟩ := hdescribes.insert hnext hdeclares hfresh
  obtain ⟨s', hs', hpictures⟩ := exists_build?_of_describes hother hlexemes file'
  exact ⟨s', hs', hpictures.trans (hextends.samePictures hdescribes.sound hother.sound)⟩

theorem discs_inserted :
    ∃ s s', build? "discs.paint" (discOnCanvas ++ filledDisc) = .ok s ∧
      build? "discs.paint" (discOnCanvas ++ shiftedDisc ++ filledDisc) = .ok s' ∧
      s'.SamePictures s := by
  have hbuild : (build? "discs.paint" (discOnCanvas ++ filledDisc)).toOption.any
      (fun s => s.shape? "d" = none) = true := by
    decide +kernel
  have hnext : (next? discOnCanvas shiftedDisc).any
      (fun st => st.shapeNames = ["d"] ∧ st.colorNames = [] ∧ st.isFill = false) = true := by
    decide +kernel
  obtain ⟨s, hs, hunknown⟩ := (Option.any_eq_true _ _).mp hbuild
  obtain ⟨st, hst, hdeclares⟩ := (Option.any_eq_true _ _).mp hnext
  obtain ⟨hshapes, hcolors, hfill⟩ := of_decide_eq_true hdeclares
  have hok := Except.toOption_eq_some_iff.mp hs
  have hfresh : s.Fresh st := by
    rw [Fresh, hshapes, hcolors]
    exact ⟨List.forall_mem_singleton.mpr (of_decide_eq_true hunknown), nofun⟩
  obtain ⟨s', hs', hpictures⟩ := build?_insert hok (content_eq_self (by decide))
    (isNext_of_next? hst) hfill hfresh (congrArg _ (content_eq_self (by decide))) "discs.paint"
  exact ⟨s, s', hok, hs', hpictures⟩

end Scene

end Easel

import Easel.Proofs.Description.Acceptance
import Easel.Proofs.Description.Phrases
import Easel.Proofs.Description.Rejection

/-! What more tokens make of a description that is complete already. Phrases end by themselves: none
of them is read differently when other tokens follow. So the statements of the description stay as
they are, those behind them add to its scene, and only these can be at fault. -/

namespace Easel

namespace Scene

/-- The names and the forms of the shapes of a scene. -/
def outlines (s : Scene) : List (String × Form Float) :=
  s.drawing.shapes.toList.map fun shape => (shape.name, shape.form)

/-- A scene on the same canvas that has everything that `s` has and behind it `m` more shapes, `n`
more colours and `k` more fills. A shape of `s` may have another colour in it. -/
structure Continues (s next : Scene) (m n k : Nat) : Prop where
  width : next.width = s.width
  height : next.height = s.height
  outlines : s.outlines <+: next.outlines
  names : s.shapeNames.entries.toList <+: next.shapeNames.entries.toList
  colors : s.colors.entries.toList <+: next.colors.entries.toList
  fills : s.fills.toList <+: next.fills.toList
  shapeCount : next.drawing.size = s.drawing.size + m
  nameCount : next.shapeNames.size = s.shapeNames.size + m
  colorCount : next.colors.size = s.colors.size + n
  fillCount : next.fills.size = s.fills.size + k

/-- One more entry in one of the three lists, and none in the other two. -/
def ContinuesByOne (s next : Scene) : Prop :=
  s.Continues next 1 0 0 ∨ s.Continues next 0 1 0 ∨ s.Continues next 0 0 1

/-- How many shapes, colours and fills there are. -/
def entryCount (s : Scene) : Nat := s.drawing.size + s.colors.size + s.fills.size

/-- A scene that statements lead to one by one, each of which adds a single entry. -/
inductive Grows : Scene → List Statement → Scene → Prop
  | none {s : Scene} : Grows s [] s
  | more {s t next : Scene} {st : Statement} {sts : List Statement} (happly : s.apply st = .ok t)
      (hone : s.ContinuesByOne t) (hmore : Grows t sts next) : Grows s (st :: sts) next

variable {s t next : Scene} {m n k m' n' k' : Nat}

theorem Continues.refl (s : Scene) : s.Continues s 0 0 0 :=
  ⟨rfl, rfl, List.prefix_rfl, List.prefix_rfl, List.prefix_rfl, List.prefix_rfl, rfl, rfl, rfl, rfl⟩

theorem Continues.trans (h : s.Continues t m n k) (h' : t.Continues next m' n' k') :
    s.Continues next (m + m') (n + n') (k + k') where
  width := h'.width.trans h.width
  height := h'.height.trans h.height
  outlines := h.outlines.trans h'.outlines
  names := h.names.trans h'.names
  colors := h.colors.trans h'.colors
  fills := h.fills.trans h'.fills
  shapeCount := by rw [h'.shapeCount, h.shapeCount, Nat.add_assoc]
  nameCount := by rw [h'.nameCount, h.nameCount, Nat.add_assoc]
  colorCount := by rw [h'.colorCount, h.colorCount, Nat.add_assoc]
  fillCount := by rw [h'.fillCount, h.fillCount, Nat.add_assoc]

/-! ### One statement -/

theorem prefix_push_toList {β : Type} (bs : Array β) (b : β) : bs.toList <+:
    (bs.push b).toList := by
  rw [Array.toList_push]
  exact List.prefix_append bs.toList [b]

theorem continues_withShape (s : Scene) (name : String) (form : Form Float) (position : Position) :
    s.Continues (s.withShape name form position) 1 0 0 where
  width := rfl
  height := rfl
  outlines := (prefix_push_toList s.drawing.shapes _).map _
  names := prefix_push_toList _ _
  colors := List.prefix_rfl
  fills := List.prefix_rfl
  shapeCount := Array.size_push _
  nameCount := Array.size_push _
  colorCount := rfl
  fillCount := rfl

theorem continues_add_color (s : Scene) (name : String) (color : Color) (position : Position) :
    s.Continues { s with colors := s.colors.add name color position } 0 1 0 :=
  { Continues.refl s with
    colors := prefix_push_toList _ _
    colorCount := Array.size_push _ }

/-- Filling a shape changes neither its name nor its form. -/
theorem outlines_fill (s : Scene) (id : Nat) (color : Color) :
    (s.fill id color).outlines = s.outlines := by
  unfold outlines
  apply List.ext_getElem?
  intro i
  rw [List.getElem?_map, List.getElem?_map, Array.getElem?_toList, Array.getElem?_toList, fill,
    getElem?_setFill, Option.map_map]
  congr 1
  funext shape
  dsimp only [Function.comp_apply]
  split <;> rfl

theorem continues_fill (s : Scene) (id : Nat) (color : Color) :
    s.Continues (s.fill id color) 0 0 1 :=
  { Continues.refl s with
    outlines := (outlines_fill s id color).symm ▸ List.prefix_rfl
    fills := prefix_push_toList _ _
    shapeCount := Array.size_modify
    fillCount := Array.size_push _ }

/-- A statement that is carried out adds one entry. -/
theorem continuesByOne_of_apply {st : Statement} (h : s.apply st = .ok next) :
    s.ContinuesByOne next := by
  cases st with
  | shape name position form =>
    rw [apply, declareShape] at h
    cases hfound : s.shapeNames.find? name with
    | some e =>
      rw [addShape_of_taken hfound] at h
      cases h
    | none =>
      rw [addShape_of_fresh hfound] at h
      cases h
      exact .inl (s.continues_withShape name form position)
  | color name position value =>
    rw [apply, declareColor] at h
    cases hfound : s.colors.find? name with
    | some e =>
      rw [addColor_of_taken hfound] at h
      cases h
    | none =>
      rw [addColor_of_fresh hfound] at h
      cases h
      exact .inr (.inl (s.continues_add_color name value position))
  | fill target value =>
    cases h
    exact .inr (.inr (s.continues_fill target value))

/-! ### A run of statements -/

theorem Grows.continues {sts : List Statement} (h : s.Grows sts next) :
    ∃ m n k, m + n + k = sts.length ∧ s.Continues next m n k := by
  induction h with
  | none => exact ⟨0, 0, 0, rfl, .refl _⟩
  | more _ hone _ ih =>
    obtain ⟨m, n, k, hsum, hnext⟩ := ih
    rcases hone with h1 | h1 | h1
    · exact ⟨1 + m, 0 + n, 0 + k, by rw [List.length_cons]; omega, h1.trans hnext⟩
    · exact ⟨0 + m, 1 + n, 0 + k, by rw [List.length_cons]; omega, h1.trans hnext⟩
    · exact ⟨0 + m, 0 + n, 1 + k, by rw [List.length_cons]; omega, h1.trans hnext⟩

theorem Grows.entryCount_eq {sts : List Statement} (h : s.Grows sts next) :
    next.entryCount = s.entryCount + sts.length := by
  obtain ⟨m, n, k, hsum, hnext⟩ := h.continues
  have hshapes := hnext.shapeCount
  have hcolors := hnext.colorCount
  have hfills := hnext.fillCount
  unfold entryCount
  omega

end Scene

namespace Description

/-! ### Reading on -/

variable {width height : Nat} {before sts : List Statement} {ts us : List Token}

/-- Statements lead from the scene of those before them to the scene of them all. -/
theorem AreStatements.grows (h : AreStatements .kept width height before ts sts)
    (hs : (Scene.ofStatements width height before).Reachable) :
    (Scene.ofStatements width height before).Grows sts
      (.ofStatements width height (before ++ sts)) := by
  induction h with
  | none =>
    rw [List.append_nil]
    exact .none
  | more hst _ ih =>
    have happly := hst.apply_eq hs.sound
    have hmore := ih (hs.apply (hst.fits hs.sound) happly)
    rw [List.append_assoc] at hmore
    exact .more happly (Scene.continuesByOne_of_apply happly) hmore

/-- The scene and the fault behind statements that are read are those of the tokens that follow. -/
theorem carryOut_append [Keyword.Order] (stop : Position)
    (h : AreStatements .kept width height before ts sts)
    (hs : (Scene.ofStatements width height before).Reachable) :
    carryOut stop (.ofStatements width height before) (ts ++ us) =
      { carryOut stop (.ofStatements width height (before ++ sts)) us with
        statements :=
          sts ++ (carryOut stop (.ofStatements width height (before ++ sts)) us).statements } := by
  induction h with
  | none => rw [List.append_nil, List.nil_append, List.nil_append]
  | @more before sts st ts rest hst _ ih =>
    have happly := hst.apply_eq hs.sound
    have hrest := ih (hs.apply (hst.fits hs.sound) happly)
    rw [List.append_assoc, List.singleton_append] at hrest
    cases ts with
    | nil => cases hst
    | cons t ts =>
      have happend : IsStatement .kept (.ofStatements width height before) (t :: (ts ++ us)) st
          (rest ++ us) := hst.append
      have hread : statement ⟨.ofStatements width height before, stop⟩ t (ts ++ us) =
          .ok ⟨st, rest ++ us, Nat.lt_succ_of_lt happend.shorter⟩ :=
        statement_eq_ok_iff.mpr happend
      rw [List.cons_append, carryOut, hread]
      simp only [happly, hrest]
      rfl

theorem statements_carryOut [Keyword.Order] (stop : Position)
    (h : AreStatements .kept width height before ts sts)
    (hs : (Scene.ofStatements width height before).Reachable) :
    (carryOut stop (.ofStatements width height before) ts).statements = sts := by
  have hts : ts ++ [] = ts := List.append_nil ts
  rw [← hts, carryOut_append stop h hs, carryOut, List.append_nil]

theorem read_of_canvas [Keyword.Order] {tokens rest : List Token}
    (h : IsCanvas (.blank 0 0) (content tokens) (width, height) rest) :
    read tokens = carryOut (stop tokens) (.blank width height) rest := by
  have hread : canvas ⟨.blank 0 0, stop tokens⟩ (content tokens) =
      .ok ⟨(width, height), rest, h.shorter⟩ := canvas_eq_ok_iff.mpr h
  rw [read, hread]

theorem read_append [Keyword.Order] {tokens tokens' rest : List Token}
    (hcontent : content tokens' = content tokens ++ us)
    (hcanvas : IsCanvas (.blank 0 0) (content tokens) (width, height) rest)
    (hsts : AreStatements .kept width height [] rest sts) :
    read tokens' =
      { carryOut (stop tokens') (.ofStatements width height sts) us with
        statements :=
          sts ++ (carryOut (stop tokens') (.ofStatements width height sts) us).statements } := by
  have hcanvas' : IsCanvas (.blank 0 0) (content tokens') (width, height) (rest ++ us) := by
    rw [hcontent]
    exact hcanvas.append
  rw [read_of_canvas hcanvas']
  exact carryOut_append (stop tokens') hsts (.blank width height)

end Description

namespace Scene

open Description

variable {file : String} {tokens tokens' us : List Token} {s : Scene}

/-- A description that is complete stays what it is when more tokens follow. If they are accepted,
they are statements, each of which adds one entry to the scene; if not, then one of them is at
fault, or the end behind them. -/
theorem build?_append [Keyword.Order] (h : build? file tokens = .ok s)
    (hcontent : content tokens' = content tokens ++ us) :
    (∀ next, build? file tokens' = .ok next →
      (∃ m n k, s.Continues next m n k) ∧
      (∃ sts, AreStatements .kept s.width s.height (read tokens).statements us sts ∧
        (read tokens').statements = (read tokens).statements ++ sts ∧ s.Grows sts next) ∧
      next.entryCount = (read tokens').statements.length) ∧
    ∀ d, build? file tokens' = .error d →
      ∃ r : Rejection, d = r.diagnostic file ∧ Blames (stop tokens') us r.position := by
  have hs := reachable_of_build h
  cases (build_iff_describes_kept file).mp h with
  | @scene rest width height sts hcanvas hsts =>
  have hblank : (ofStatements width height []).Reachable := .blank width height
  have hread := read_append hcontent hcanvas hsts
  have hbefore : (read tokens).statements = sts := by
    rw [read_of_canvas hcanvas]
    exact statements_carryOut (stop tokens) hsts hblank
  rw [build?, ofTokens?, hread, hbefore]
  constructor
  · intro next hnext
    have hresult := Except.mapError_eq_ok_iff.mp hnext
    obtain ⟨more, hmore, rfl⟩ := (carryOut_result_iff (stop tokens') us hs).mp hresult
    have hgrows := hmore.grows hs
    have hall := (hsts.grows hblank).entryCount_eq
    obtain ⟨m, n, k, -, hcontinues⟩ := hgrows.continues
    rw [statements_carryOut (stop tokens') hmore hs]
    refine ⟨⟨m, n, k, hcontinues⟩, ⟨more, hmore, rfl, hgrows⟩, ?_⟩
    have hnone : (ofStatements width height []).entryCount = 0 := rfl
    rw [hgrows.entryCount_eq, List.length_append]
    rw [List.nil_append, hnone, Nat.zero_add] at hall
    rw [hall]
  · intro d hd
    obtain ⟨r, hr, rfl⟩ := Except.mapError_eq_error_iff.mp hd
    have hrejection := Progress.result_eq_error_iff.mp hr
    exact ⟨r, rfl, (carryOut_rejects (s := ofStatements width height sts) List.suffix_rfl
      hrejection).blames⟩

/-- A canvas with a disc on it, without a mark for the end of the file. -/
def lonelyDisc : List Token :=
  [(.name, "size"), (.number, "1"), (.number, "1"), (.name, "circ"), (.name, "disc"),
    (.openBrace, "\x7b"), (.number, "0"), (.number, "0"), (.closeBrace, "\x7d"),
    (.number, "1")].map fun (kind, text) => ⟨kind, text, .nowhere⟩

/-- A statement that fills the disc. -/
def filling : List Token :=
  [(.name, "fill"), (.name, "disc"), (.openBrace, "\x7b"), (.number, "1"), (.number, "0"),
    (.number, "0"), (.closeBrace, "\x7d")].map fun (kind, text) => ⟨kind, text, .nowhere⟩

theorem lonelyDisc_append_filling :
    ∃ s next, build? "disc.paint" lonelyDisc = .ok s ∧
      build? "disc.paint" (lonelyDisc ++ filling) = .ok next ∧
      (∃ m n k, s.Continues next m n k) ∧
      next.entryCount = (read (lonelyDisc ++ filling)).statements.length := by
  have hdisc : (build? "disc.paint" lonelyDisc).isOk = true := by decide +kernel
  have hfilled : (build? "disc.paint" (lonelyDisc ++ filling)).isOk = true := by decide +kernel
  have hcontent : content (lonelyDisc ++ filling) = content lonelyDisc ++ filling := by decide
  cases hs : build? "disc.paint" lonelyDisc with
  | error d => rw [hs] at hdisc; cases hdisc
  | ok s =>
    cases hnext : build? "disc.paint" (lonelyDisc ++ filling) with
    | error d => rw [hnext] at hfilled; cases hfilled
    | ok next =>
      obtain ⟨hcontinues, -, hcount⟩ := (build?_append hs hcontent).1 next hnext
      exact ⟨s, next, rfl, rfl, hcontinues, hcount⟩

end Scene

end Easel

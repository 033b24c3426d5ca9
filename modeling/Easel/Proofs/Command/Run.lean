import Easel.Proofs.Command.FileTree
import Easel.Proofs.Scene.Memory
import Easel.Proofs.Text.Ascii

/-! What a run does to the files of a machine. It ends early for one of a few reasons, and then it
changes nothing, or it paints the scene of its source, and then it writes the picture and changes
nothing else. A machine that stops while it paints has changed nothing either. -/

namespace Easel

open Easel.Path

variable {machine : Overflow} {f : FileTree} {o : Options} {scene : Scene} {image : Image}
  {names : List String}

namespace Command

variable {source : String → Option (List UInt8)} {picture : Picture}

/-- The source of a run is accepted: it has the right extension, and its bytes are a text that
describes a scene. -/
structure Accepts [Description.Keyword.Order] (source : String → Option (List UInt8)) (o : Options)
    (scene : Scene) : Prop where
  extension : extension? o.source = some Options.sourceExtension.toList
  parsed : ∃ bytes text, source o.source = some bytes ∧ Utf8.text? bytes = some text ∧
    Scene.parse? o.source text = .ok scene

theorem readSource_snd [Description.Keyword.Order] (file source : String) :
    (readSource file source).2 = Scene.parse? file source := by
  rw [readSource, Scene.parse?]
  cases Token.ofSource? file source <;> rfl

/-- A run comes to a picture if its source is accepted and not only checked, and if the machine does
not stop while it paints. Its work is done when that is written. -/
theorem compile_eq_some [Description.Keyword.Order]
    (h : (compile machine o source).2 = some picture) :
    o.check = false ∧ (compile machine o source).1.ending = .finished ∧
      ∃ scene image, Accepts source o scene ∧
        scene.picture? machine o.precedence o.background = some image ∧
        picture = .ofImage machine o.outputPath image := by
  revert h
  rw [compile, Options.sourcePath]
  split
  · exact nofun
  · next path hpath =>
    split at hpath
    · next hextension =>
      cases hpath
      split
      · exact nofun
      · next text htext =>
        obtain ⟨bytes, hbytes, htext⟩ := Option.bind_eq_some_iff.mp htext
        have hread := readSource_snd o.source text
        split
        · exact nofun
        · next entries scene hscene =>
          rw [hscene] at hread
          split
          · exact nofun
          · next hcheck =>
            cases himage : scene.picture? machine o.precedence o.background with
            | none => exact nofun
            | some image =>
              intro h
              exact ⟨Bool.eq_false_iff.mpr hcheck, rfl, scene, image,
                ⟨hextension, bytes, text, hbytes, htext, hread.symm⟩, himage,
                (Option.some.inj h).symm⟩
    · cases hpath

/-- What the run of an accepted source comes to: the picture, or nothing if the machine stops. -/
theorem Accepts.compile_eq [Description.Keyword.Order] (h : Accepts source o scene)
    (machine : Overflow) (hcheck : o.check = false) :
    (compile machine o source).2 = (scene.picture? machine o.precedence o.background).map
        (.ofImage machine o.outputPath) ∧
      (scene.picture? machine o.precedence o.background = none →
        (compile machine o source).1.ending = .crashed) := by
  obtain ⟨hextension, bytes, text, hbytes, htext, hscene⟩ := h
  have hpath : o.sourcePath = .ok o.source := if_pos hextension
  have hboth : (source o.source).bind Utf8.text? = some text := by
    rw [hbytes, Option.bind_some, htext]
  rw [compile, hpath]
  simp only [hboth]
  rw [← readSource_snd] at hscene
  generalize readSource o.source text = result at hscene
  obtain ⟨entries, result⟩ := result
  cases hscene
  simp only [hcheck, Bool.false_eq_true, if_false]
  cases scene.picture? machine o.precedence o.background with
  | none => exact ⟨rfl, fun _ => rfl⟩
  | some image => exact ⟨rfl, nofun⟩

theorem ofImage_path (machine : Overflow) (path : String) (image : Image) :
    (Picture.ofImage machine path image).path = path := by
  rw [Picture.ofImage]
  split <;> rfl

/-- The bytes of a picture that has room for its rows. -/
theorem ofImage_bytes {order : Precedence} {background : Color}
    (himage : scene.picture? machine order background = some image)
    (h : scene.width * 3 ≤ Word.maxBytes) (path : String) :
    (Picture.ofImage machine path image).complete = true ∧
      (Picture.ofImage machine path image).bytes = Pixmap.encode image := by
  have hcomplete := Scene.complete_eq himage path
  rw [(Scene.writesInMemory_iff.mpr h).row] at hcomplete
  refine ⟨hcomplete, ?_⟩
  revert hcomplete
  rw [Picture.ofImage]
  split
  · exact fun _ => rfl
  · intro hfalse
    cases hfalse

end Command

namespace FileTree

/-- What keeps a run from writing anything: it is to check the source only, the source has another
extension, cannot be read, is not a text, cannot be scanned or is rejected, or there is no place for
the picture. -/
inductive Stops [Description.Keyword.Order] (f : FileTree) (o : Options) : Prop
  | checked (h : o.check = true)
  | extension (h : extension? o.source ≠ some Options.sourceExtension.toList)
  | unreadable (h : f.read? o.source = none)
  | noText {bytes : List UInt8} (hbytes : f.read? o.source = some bytes)
      (h : Utf8.text? bytes = none)
  | malformed {bytes : List UInt8} {text : String} {report : Diagnostic}
      (hbytes : f.read? o.source = some bytes) (htext : Utf8.text? bytes = some text)
      (h : Token.ofSource? o.source text = .error report)
  | rejected {bytes : List UInt8} {text : String} {tokens : List Token} {report : Diagnostic}
      (hbytes : f.read? o.source = some bytes) (htext : Utf8.text? bytes = some text)
      (htokens : Token.ofSource? o.source text = .ok tokens)
      (h : Scene.build? o.source tokens = .error report)
  | noPlace (h : ∀ bytes, f.write? o.outputPath bytes = none)

/-- A run that paints a scene, and the names that lead to the place for its picture. -/
structure Paints [Description.Keyword.Order] (f : FileTree) (o : Options) (scene : Scene)
    (names : List String) : Prop where
  unchecked : o.check = false
  accepts : Command.Accepts f.read? o scene
  place : f.resolve? o.outputPath = some names
  free : f.isFolder names = false

/-- A run that comes to no picture has nothing to write. -/
theorem run_of_none [Description.Keyword.Order]
    (h : (Command.compile machine o f.read?).2 = none) :
    f.run machine o = ((Command.compile machine o f.read?).1, f) := by
  rw [run]
  generalize Command.compile machine o f.read? = result at h ⊢
  obtain ⟨outcome, picture⟩ := result
  obtain rfl : picture = none := h
  rfl

/-- A run that comes to a picture writes it, if there is a place for it. -/
theorem run_of_some [Description.Keyword.Order] {picture : Command.Picture}
    (h : (Command.compile machine o f.read?).2 = some picture) :
    f.run machine o = match f.write? picture.path picture.bytes with
      | some after => (Command.written (Command.compile machine o f.read?).1 picture, after)
      | none => (Command.unwritten (Command.compile machine o f.read?).1 picture, f) := by
  rw [run]
  generalize Command.compile machine o f.read? = result at h ⊢
  obtain ⟨outcome, _⟩ := result
  obtain rfl : _ = some picture := h
  rfl

theorem Stops.run_eq [Description.Keyword.Order] (h : f.Stops o) : (f.run machine o).2 = f := by
  cases hpicture : (Command.compile machine o f.read?).2 with
  | none => rw [run_of_none hpicture]
  | some picture =>
    obtain ⟨hcheck, -, scene, image, ⟨hextension, bytes, text, hbytes, htext, hscene⟩, -, hsame⟩ :=
      Command.compile_eq_some hpicture
    obtain ⟨tokens, htokens, hbuild⟩ := Except.bind_eq_ok_iff.mp hscene
    have hnothing : ∀ bytes, f.write? o.outputPath bytes = none := by
      cases h with
      | checked h => cases hcheck.symm.trans h
      | extension h => exact absurd hextension h
      | unreadable h => cases hbytes.symm.trans h
      | noText hbytes' h =>
        cases hbytes.symm.trans hbytes'
        cases htext.symm.trans h
      | malformed hbytes' htext' h =>
        cases hbytes.symm.trans hbytes'
        cases htext.symm.trans htext'
        cases htokens.symm.trans h
      | rejected hbytes' htext' htokens' h =>
        cases hbytes.symm.trans hbytes'
        cases htext.symm.trans htext'
        cases htokens.symm.trans htokens'
        cases hbuild.symm.trans h
      | noPlace h => exact h
    rw [run_of_some hpicture, hsame]
    simp only [Command.ofImage_path, hnothing]

/-- Whatever does not keep a run from writing lets it paint. -/
theorem stops_or_paints [Description.Keyword.Order] (f : FileTree) (o : Options) :
    f.Stops o ∨ ∃ scene names, f.Paints o scene names := by
  cases hcheck : o.check with
  | true => exact .inl (.checked hcheck)
  | false =>
  rcases Decidable.em (extension? o.source = some Options.sourceExtension.toList) with hext | hext
  · cases hbytes : f.read? o.source with
    | none => exact .inl (.unreadable hbytes)
    | some bytes =>
    cases htext : Utf8.text? bytes with
    | none => exact .inl (.noText hbytes htext)
    | some text =>
    cases htokens : Token.ofSource? o.source text with
    | error report => exact .inl (.malformed hbytes htext htokens)
    | ok tokens =>
    cases hscene : Scene.build? o.source tokens with
    | error report => exact .inl (.rejected hbytes htext htokens hscene)
    | ok scene =>
    have hparse : Scene.parse? o.source text = .ok scene :=
      Except.bind_eq_ok_iff.mpr ⟨tokens, htokens, hscene⟩
    cases hplace : f.resolve? o.outputPath with
    | none =>
      refine .inl (.noPlace fun bytes => ?_)
      rw [write?, hplace, Option.bind_none]
    | some names =>
    cases hfree : f.isFolder names with
    | true =>
      refine .inl (.noPlace fun bytes => ?_)
      rw [write?, hplace, Option.bind_some, hfree]
      rfl
    | false =>
      have haccepts : Command.Accepts f.read? o scene :=
        ⟨hext, bytes, text, hbytes, htext, hparse⟩
      exact .inr ⟨scene, names, hcheck, haccepts, hplace, hfree⟩
  · exact .inl (.extension hext)

/-- There are the same folders before and after, and the same files but for one. -/
def DiffersAt (names : List String) (before after : FileTree) : Prop :=
  (∀ other, other ≠ names → after.content? other = before.content? other) ∧
    ∀ other, after.isFolder other = before.isFolder other

/-- A picture that the machine comes to is written. -/
theorem Paints.run_eq [Description.Keyword.Order] (h : f.Paints o scene names)
    (hroom : scene.width * 3 ≤ Word.maxBytes)
    (himage : scene.picture? machine o.precedence o.background = some image) :
    (f.run machine o).1.exitCode? = some 0 ∧
      (f.run machine o).2.content? names = some (Pixmap.encode image) ∧
      f.DiffersAt names (f.run machine o).2 := by
  have hpicture : (Command.compile machine o f.read?).2 =
      some (.ofImage machine o.outputPath image) := by
    rw [(h.accepts.compile_eq machine h.unchecked).1, himage, Option.map_some]
  obtain ⟨-, hending, -⟩ := Command.compile_eq_some hpicture
  obtain ⟨hcomplete, hbytes⟩ := Command.ofImage_bytes himage hroom o.outputPath
  have hwrite : ∀ bytes, f.write? o.outputPath bytes = some (f.put names bytes) := by
    intro bytes
    rw [write?, h.place, Option.bind_some, h.free]
    rfl
  obtain ⟨dir, name, front, -, -, -, rfl, hfront⟩ := exists_name h.place
  rw [run_of_some hpicture]
  simp only [Command.ofImage_path, hwrite, hbytes]
  refine ⟨?_, content?_put_self _ _ _, fun other hother => content?_put_of_ne hother,
    fun other => isFolder_put hfront _⟩
  rw [Command.written, if_pos hcomplete, Command.Outcome.exitCode?]
  simp only [hending]

/-- If the machine stops while it paints, there is nothing to write. -/
theorem Paints.run_crashed [Description.Keyword.Order] (h : f.Paints o scene names)
    (himage : scene.picture? machine o.precedence o.background = none) :
    (f.run machine o).1.exitCode? = none ∧ (f.run machine o).2 = f := by
  obtain ⟨hpicture, hcrashed⟩ := h.accepts.compile_eq machine h.unchecked
  have hending := hcrashed himage
  rw [himage, Option.map_none] at hpicture
  rw [run_of_none hpicture]
  refine ⟨?_, rfl⟩
  rw [Command.Outcome.exitCode?, hending]

/-- A run fails if it comes to a picture and there is no place for it. -/
theorem exitCode?_run_of_noPlace [Description.Keyword.Order] (h : Command.Accepts f.read? o scene)
    (hcheck : o.check = false)
    (himage : scene.picture? machine o.precedence o.background = some image)
    (hplace : ∀ bytes, f.write? o.outputPath bytes = none) :
    (f.run machine o).1.exitCode? = some 1 := by
  have hpicture := (h.compile_eq machine hcheck).1
  rw [himage, Option.map_some] at hpicture
  rw [run_of_some hpicture]
  simp only [Command.ofImage_path, hplace]
  rfl

/-- Where the picture of a source goes when no place is given for it: into the same folder, under
the name of the source with the extension of a picture. The source `..paint` is an exception.
Without its extension it is two dots, which lead to the folder above, and there is no place for a
file. -/
def BesideSource (f : FileTree) (o : Options) (source : List String) : Prop :=
  ∃ dir stem, IsDirectory dir ∧ '/' ∉ stem ∧
    o.source = String.ofList (dir ++ (stem ++ '.' :: Options.sourceExtension.toList)) ∧
    (stem ≠ ['.'] →
      o.outputPath = String.ofList (dir ++ (stem ++ '.' :: Options.outputExtension.toList)) ∧
      ∃ names, f.resolve? o.outputPath = some names ∧ names ≠ source) ∧
    (stem = ['.'] →
      o.outputPath = String.ofList (dir ++ ['.', '.']) ∧ f.resolve? o.outputPath = none)

theorem isName_picture {stem : List Char} (hplain : '/' ∉ stem) :
    IsName (stem ++ '.' :: Options.outputExtension.toList) where
  plain hmem := by
    rcases List.mem_append.mp hmem with hmem | hmem
    · exact hplain hmem
    · exact absurd hmem (by decide)
  nonempty := by simp
  notHere h := by simpa [Options.outputExtension] using congrArg List.length h
  notUp h := by simpa [Options.outputExtension] using congrArg List.length h

theorem byteSize_picture_le (stem : List Char) :
    Text.byteSize (stem ++ '.' :: Options.outputExtension.toList) ≤
      Text.byteSize (stem ++ '.' :: Options.sourceExtension.toList) := by
  rw [Text.byteSize_append, Text.byteSize_append]
  exact Nat.add_le_add_left (by decide) _

theorem besideSource {source : List String} (hout : o.output = none)
    (hextension : extension? o.source = some Options.sourceExtension.toList)
    (hsource : f.resolve? o.source = some source) : f.BesideSource o source := by
  obtain ⟨dir, name, -, hpath, hdir, hname, -, -⟩ := exists_name hsource
  rw [hpath] at hextension
  obtain ⟨stem, rfl, hold, hstem⟩ := (extension?_eq_some_iff hdir hname).mp hextension
  have hplain : '/' ∉ stem := fun hmem => hname.plain (List.mem_append_left _ hmem)
  have houtput : o.outputPath = String.ofList (dir ++
      if stem = ['.'] then ['.', '.'] else stem ++ '.' :: Options.outputExtension.toList) := by
    rw [Options.outputPath, hout, Option.getD_none, hpath]
    exact withExtension_eq hdir hname hold hstem (by decide)
  refine ⟨dir, stem, hdir, hplain, hpath, fun hne => ?_, ?_⟩
  · rw [if_neg hne] at houtput
    refine ⟨houtput, ?_⟩
    have hnull : '\x00' ∈ stem ++ '.' :: Options.outputExtension.toList →
        '\x00' ∈ stem ++ '.' :: Options.sourceExtension.toList := by
      intro hmem
      rcases List.mem_append.mp hmem with hmem | hmem
      · exact List.mem_append_left _ hmem
      · exact absurd hmem (by decide)
    rw [hpath] at hsource
    obtain ⟨front, rfl, hplace⟩ := resolve?_sibling hdir hname.plain (isName_picture hplain) hnull
      (byteSize_picture_le stem) hsource
    rw [houtput, hplace]
    refine ⟨_, rfl, fun hsame => ?_⟩
    have hnames := String.ofList_injective (List.singleton_inj.mp (List.append_cancel_left hsame))
    exact absurd (List.append_cancel_left hnames) (by decide)
  · rintro rfl
    rw [if_pos rfl] at houtput
    refine ⟨houtput, Option.eq_none_iff_forall_ne_some.mpr fun names hnames => ?_⟩
    obtain ⟨parts, hsplit⟩ := hdir.exists_split
    rw [houtput, resolve?_eq_some_iff (hsplit _ (by decide)) (by decide)] at hnames
    exact hnames.2.1.notUp rfl

/-- A run writes a complete picture to its place and changes nothing else, or it changes nothing at
all. It comes to the picture of an accepted source unless a box leads the machine beyond the edges
of the canvas. If no place is given for the picture, it goes beside the source and not over it, but
for sources with the name `..paint`, which it has no place for. -/
theorem run_allOrNothing [Description.Keyword.Order] (machine : Overflow) (f : FileTree)
    (o : Options) :
    (f.Stops o → (f.run machine o).2 = f) ∧
      (∀ scene names, f.Paints o scene names → scene.width * 3 ≤ Word.maxBytes →
        (∀ image, scene.picture? machine o.precedence o.background = some image →
          (f.run machine o).1.exitCode? = some 0 ∧
          (f.run machine o).2.content? names = some (Pixmap.encode image) ∧
          f.DiffersAt names (f.run machine o).2) ∧
        (scene.picture? machine o.precedence o.background = none →
          (f.run machine o).1.exitCode? = none ∧ (f.run machine o).2 = f) ∧
        (scene.SpansInside → (scene.picture? machine o.precedence o.background).isSome)) ∧
      (f.Stops o ∨ ∃ scene names, f.Paints o scene names) ∧
      (o.output = none → extension? o.source = some Options.sourceExtension.toList →
        ∀ source, f.resolve? o.source = some source → f.BesideSource o source) := by
  refine ⟨Stops.run_eq, fun scene names h hroom => ⟨fun image => h.run_eq hroom, h.run_crashed,
    fun hinside => ?_⟩, stops_or_paints f o, fun hout hextension _ => besideSource hout hextension⟩
  obtain ⟨bytes, text, -, -, hscene⟩ := h.accepts.parsed
  rw [Scene.picture?_eq _ _ _ (Scene.holdable_of_parse? hscene) hinside]
  rfl

/-- A machine with a description of a canvas without pixels in the folder `work`. -/
def oneFile (name : String) : FileTree :=
  ⟨[(["work", name], Text.ascii "size 0 0".toList)], [], ["work"]⟩

/-- What a command line with a source, and maybe a place for the picture, asks for. -/
def plainOptions (source : String) (output : Option String) : Options :=
  ⟨false, false, false, false, source, output, .first, .black⟩

theorem oneFile_accepts [Description.Keyword.Order] {name : String} {output : Option String}
    (hextension : extension? name = some Options.sourceExtension.toList)
    (hread : (oneFile name).read? name = some (Text.ascii "size 0 0".toList))
    (hscene : (Scene.parse? name "size 0 0").toOption = some (.blank 0 0)) :
    Command.Accepts (oneFile name).read? (plainOptions name output) (.blank 0 0) := by
  have hall : "size 0 0".toList.all (fun c => c.toNat < 128) = true := by decide +kernel
  have hascii : ∀ c ∈ "size 0 0".toList, c.toNat < 128 :=
    fun c hc => of_decide_eq_true (List.all_eq_true.mp hall c hc)
  exact ⟨hextension, _, "size 0 0", hread, Utf8.text?_ascii hascii,
    Except.toOption_eq_some_iff.mp hscene⟩

theorem picture_beside :
    Options.ofArguments? ["a.paint", "/a.ppm"] = .ok (plainOptions "a.paint" (some "/a.ppm")) ∧
    ((oneFile "a.paint").run .stops (plainOptions "a.paint" (some "/a.ppm"))).1.exitCode? = some 0 ∧
    ((oneFile "a.paint").run .stops (plainOptions "a.paint" (some "/a.ppm"))).2.content? ["a.ppm"] =
      some (Text.ascii "P6 0 0 255\n".toList) ∧
    (oneFile "a.paint").BesideSource (plainOptions "a.paint" none) ["work", "a.paint"] := by
  have haccepts := @oneFile_accepts _ "a.paint" (some "/a.ppm") (by decide +kernel)
    (by decide +kernel) (by decide +kernel)
  have hplace : (oneFile "a.paint").resolve?
      (plainOptions "a.paint" (some "/a.ppm")).outputPath = some ["a.ppm"] := by
    decide +kernel
  have himage : (Scene.blank 0 0).picture? .stops .first .black = some ⟨0, 0, #[]⟩ := by
    decide +kernel
  have hbytes : Pixmap.encode ⟨0, 0, #[]⟩ = Text.ascii "P6 0 0 255\n".toList := by decide +kernel
  obtain ⟨hcode, hcontent, -⟩ := ((run_allOrNothing .stops (oneFile "a.paint")
    (plainOptions "a.paint" (some "/a.ppm"))).2.1 (.blank 0 0) ["a.ppm"]
    ⟨rfl, haccepts, hplace, by decide +kernel⟩ (by decide +kernel)).1 _ himage
  have hbeside := (run_allOrNothing .stops (oneFile "a.paint") (plainOptions "a.paint" none)).2.2.2
    rfl (by decide +kernel) ["work", "a.paint"] (by decide +kernel)
  exact ⟨rfl, hcode, hcontent.trans (congrArg some hbytes), hbeside⟩

/-- There is a source that is accepted and whose picture is not written, though there is a place for
it beside the source. -/
theorem exists_run_unwritten :
    Options.ofArguments? ["..paint"] = .ok (plainOptions "..paint" none) ∧
    (plainOptions "..paint" none).outputPath = ".." ∧
    ((oneFile "..paint").run .stops (plainOptions "..paint" none)).1.exitCode? = some 1 ∧
    ((oneFile "..paint").run .stops (plainOptions "..paint" none)).2 = oneFile "..paint" ∧
    (oneFile "..paint").write? "..ppm" (Text.ascii "P6 0 0 255\n".toList) ≠ none := by
  have haccepts := @oneFile_accepts _ "..paint" none (by decide +kernel) (by decide +kernel)
    (by decide +kernel)
  have hplace : (oneFile "..paint").resolve? (plainOptions "..paint" none).outputPath = none := by
    decide +kernel
  have himage : (Scene.blank 0 0).picture? .stops .first .black = some ⟨0, 0, #[]⟩ := by
    decide +kernel
  have hnothing : ∀ bytes,
      (oneFile "..paint").write? (plainOptions "..paint" none).outputPath bytes = none := by
    intro bytes
    rw [write?, hplace, Option.bind_none]
  exact ⟨rfl, by decide +kernel, exitCode?_run_of_noPlace haccepts rfl himage hnothing,
    Stops.run_eq (.noPlace hnothing), by decide +kernel⟩

end FileTree

end Easel

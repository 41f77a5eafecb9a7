/-
# What a process leaves

A process goes through stages, and only the last of them writes:

| stage | fails if | exit code then |
| --- | --- | ---: |
| command line | the words are faulty | 2 |
| log | what to log cannot be used | 1 |
| extraction | the input cannot be read, is no image, or has no table of symbols | 1 |
| listing | the output cannot be written | 1 |

So a process that fails before the last stage leaves every file as it was.  Otherwise
the listing comes from what the input held before anything was written, and where it
goes to a file, this file holds it afterwards, also if it was the input
(`effect_ofWords`).
-/

import ParamAtlas.Command.Run
import ParamAtlas.Proofs.Command.Files
import ParamAtlas.Proofs.Extraction.Outcome

namespace ParamAtlas

/-- What a listing is as a file: the bytes that a sink without a limit takes. -/
def Listing.bytes (format : OutputFormat) (rs : List Row) : Bytes :=
  .ofText (Listing.write format rs (.fresh none)).1.held

namespace FileSystem

variable {fs : FileSystem} {word : String} {o : Outlet}

/-- Whether there is room for bytes in an outlet. -/
def Fits (fs : FileSystem) (o : Outlet) (b : Bytes) : Prop := ∀ n, fs.roomIn o = some n → b.size ≤ n

/-- Bytes that fit are taken. -/
theorem pour_of_fits {b : Bytes} (h : fs.Fits o b) : fs.pour b o = (fs.put b o, .ok ()) := by
  unfold pour
  cases hroom : fs.roomIn o with
  | none => rfl
  | some n =>
    have hle := h n hroom
    simp only [if_pos hle, Array.extract_eq_self_of_le hle]

/-- Of bytes that do not fit only the first ones are taken, and that is told. -/
theorem pour_of_not_fits {b : Bytes} (h : ¬fs.Fits o b) :
    ∃ n < b.size, fs.pour b o = (fs.put (b.extract 0 n) o, .error .noSpace) := by
  simp only [Fits, not_forall, Nat.not_le] at h
  obtain ⟨n, hroom, hlt⟩ := h
  refine ⟨n, hlt, ?_⟩
  unfold pour
  simp only [hroom, if_neg (Nat.not_le.2 hlt)]

/-- A listing is written to the outlet that the word leads to. -/
theorem write_of_outlet (h : fs.outlet word = .ok o) (format : OutputFormat) (rs : List Row) :
    fs.write word format rs = fs.pour (Listing.bytes format rs) o := by
  rw [Listing.bytes, Listing.write_fresh_none]
  simp only [write, h]

/-- Nothing is written without an outlet. -/
theorem write_of_outlet_error {f : SystemFault} (h : fs.outlet word = .error f)
    (format : OutputFormat) (rs : List Row) : fs.write word format rs = (fs, .error f) := by
  simp only [write, h]

end FileSystem

namespace Outcome

variable {words : List String} {fs : FileSystem}

/-! ## Stage by stage -/

section

variable {s : Settings} {fs' : FileSystem}

/-- The command line is refused, or asks about the program. -/
theorem ofWords_of_error {r : CommandLine.Refusal} (hline : CommandLine.settings words = .error r) :
    ofWords words fs = ⟨if r.isFault then 2 else 0, r.text, none, fs⟩ := by
  rw [ofWords, hline]

/-- What to log cannot be used. -/
theorem ofWords_of_noLog (hline : CommandLine.settings words = .ok s)
    (hlog : ¬s.logSpec.all LogSpec.isValid) : ofWords words fs = ⟨1, "", some noLog, fs⟩ := by
  rw [ofWords, hline]
  exact if_neg hlog

/-- The run fails. -/
theorem ofWords_of_run_error {f : Failure} (hline : CommandLine.settings words = .ok s)
    (hlog : s.logSpec.all LogSpec.isValid) (hrun : s.run fs = ⟨fs', .error f⟩) :
    ofWords words fs = ⟨1, "", some f.message, fs'⟩ := by
  rw [ofWords, hline]
  dsimp only
  rw [if_pos hlog, hrun]

/-- The run goes well. -/
theorem ofWords_of_run_ok {e : Extraction} (hline : CommandLine.settings words = .ok s)
    (hlog : s.logSpec.all LogSpec.isValid) (hrun : s.run fs = ⟨fs', .ok e⟩) :
    ofWords words fs = ⟨0, "", none, fs'⟩ := by
  rw [ofWords, hline]
  dsimp only
  rw [if_pos hlog, hrun]

end

/-! ## How far a process gets -/

/-- A stage before the writing fails. -/
inductive FailsBeforeWriting (words : List String) (fs : FileSystem) : Prop
  | line {r : CommandLine.Refusal} (h : CommandLine.settings words = .error r) (hfault : r.isFault)
  | log {s : Settings} (h : CommandLine.settings words = .ok s)
      (hlog : ¬s.logSpec.all LogSpec.isValid)
  | extraction {s : Settings} {f : Failure} (h : CommandLine.settings words = .ok s)
      (hextraction : Extraction.ofFile s fs = .error f)

/-- The words ask about the program. -/
def AsksAbout (words : List String) : Prop :=
  ∃ r, CommandLine.settings words = .error r ∧ ¬r.isFault

/-- All stages before the writing go well: with these settings, the input holds these bytes,
and this is extracted from them. -/
structure Extracts (words : List String) (fs : FileSystem) (s : Settings) (b : Bytes)
    (e : Extraction) : Prop where
  line : CommandLine.settings words = .ok s
  log : s.logSpec.all LogSpec.isValid
  input : fs.read s.input = .ok b
  extraction : Extraction.ofBytes s b = .ok e

/-- A process fails before it writes, tells about the program, or has something to write. -/
theorem fails_or_asks_or_extracts (words : List String) (fs : FileSystem) :
    FailsBeforeWriting words fs ∨ AsksAbout words ∨ ∃ s b e, Extracts words fs s b e := by
  cases hline : CommandLine.settings words with
  | error r =>
    by_cases hfault : r.isFault
    · exact .inl (.line hline hfault)
    · exact .inr (.inl ⟨r, hline, hfault⟩)
  | ok s =>
    by_cases hlog : s.logSpec.all LogSpec.isValid
    · cases hextraction : Extraction.ofFile s fs with
      | error f => exact .inl (.extraction hline hextraction)
      | ok e =>
        unfold Extraction.ofFile at hextraction
        split at hextraction
        · cases hextraction
        · rename_i b hinput
          exact .inr (.inr ⟨s, b, e, hline, hlog, hinput, hextraction⟩)
    · exact .inl (.log hline hlog)

/-- **A process that fails before it writes** tells so and leaves every file. -/
theorem FailsBeforeWriting.effect (h : FailsBeforeWriting words fs) :
    (ofWords words fs).exitCode ≠ 0 ∧ (ofWords words fs).files = fs := by
  cases h with
  | line hline hfault =>
    rw [ofWords_of_error hline, if_pos hfault]
    exact ⟨Nat.succ_ne_zero 1, rfl⟩
  | log hline hlog =>
    rw [ofWords_of_noLog hline hlog]
    exact ⟨Nat.one_ne_zero, rfl⟩
  | @extraction s f hline hextraction =>
    by_cases hlog : s.logSpec.all LogSpec.isValid
    · have hrun : s.run fs = ⟨fs, .error f⟩ := by rw [Settings.run, hextraction]
      rw [ofWords_of_run_error hline hlog hrun]
      exact ⟨Nat.one_ne_zero, rfl⟩
    · rw [ofWords_of_noLog hline hlog]
      exact ⟨Nat.one_ne_zero, rfl⟩

/-- A request to tell about the program leaves every file. -/
theorem AsksAbout.effect (h : AsksAbout words) (fs : FileSystem) :
    (ofWords words fs).exitCode = 0 ∧ (ofWords words fs).files = fs := by
  obtain ⟨r, hline, hfault⟩ := h
  rw [ofWords_of_error hline, if_neg hfault]
  exact ⟨rfl, rfl⟩

namespace Extracts

variable {s : Settings} {b : Bytes} {e : Extraction} (h : Extracts words fs s b e)

include h

/-- The extraction is that of the file. -/
theorem ofFile_eq : Extraction.ofFile s fs = .ok e := by
  rw [Extraction.ofFile, h.input]
  exact h.extraction

/-- Where the listing is written, the process leaves what the writing leaves. -/
theorem ofWords_of_write_ok {fs' : FileSystem}
    (hwrite : fs.write s.output s.format e.rows = (fs', .ok ())) :
    ofWords words fs = ⟨0, "", none, fs'⟩ := by
  refine ofWords_of_run_ok h.line h.log (e := e) ?_
  rw [Settings.run, h.ofFile_eq]
  dsimp only
  rw [hwrite]

/-- Where the listing is refused, the process fails and leaves what the writing leaves. -/
theorem ofWords_of_write_error {fs' : FileSystem} {f : SystemFault}
    (hwrite : fs.write s.output s.format e.rows = (fs', .error f)) :
    ofWords words fs = ⟨1, "", some (Failure.unwritable s.output f.message).message, fs'⟩ := by
  refine ofWords_of_run_error h.line h.log ?_
  rw [Settings.run, h.ofFile_eq]
  dsimp only
  rw [hwrite]

end Extracts

/-- **What a process leaves.**  It fails before it writes, or tells about the program, or
has a listing to write.

| | exit code | files |
| --- | --- | --- |
| it fails before it writes | not 0 | as they were |
| it tells about the program | 0 | as they were |
| the listing goes to a file, and fits | 0 | this file holds it |
| the listing goes to a file, and does not fit | not 0 | this file holds its beginning |
| the listing goes to a device | 0 if it fits | as they were |
| the output is refused | not 0 | as they were |

All other files are as they were.  The listing is that of the bytes that the input held at
first, whatever the output is. -/
theorem effect_ofWords (words : List String) (fs : FileSystem) :
    (FailsBeforeWriting words fs ∨ AsksAbout words ∨ ∃ s b e, Extracts words fs s b e) ∧
    (FailsBeforeWriting words fs →
      (ofWords words fs).exitCode ≠ 0 ∧ (ofWords words fs).files = fs) ∧
    (AsksAbout words → (ofWords words fs).exitCode = 0 ∧ (ofWords words fs).files = fs) ∧
    ∀ s b e, Extracts words fs s b e →
      (∀ o, fs.outlet s.output = .ok o →
        (fs.Fits o (Listing.bytes s.format e.rows) →
          (ofWords words fs).exitCode = 0 ∧
          ∀ i, fs.fileIn o = some i →
            fs.Rewritten (ofWords words fs).files s.output i (Listing.bytes s.format e.rows)) ∧
        (¬fs.Fits o (Listing.bytes s.format e.rows) →
          (ofWords words fs).exitCode ≠ 0 ∧
          ∀ i, fs.fileIn o = some i → ∃ n < (Listing.bytes s.format e.rows).size,
            fs.Rewritten (ofWords words fs).files s.output i
              ((Listing.bytes s.format e.rows).extract 0 n)) ∧
        (fs.fileIn o = none → (ofWords words fs).files = fs)) ∧
      (∀ f, fs.outlet s.output = .error f →
        (ofWords words fs).exitCode ≠ 0 ∧ (ofWords words fs).files = fs) := by
  refine ⟨fails_or_asks_or_extracts words fs, FailsBeforeWriting.effect, fun h => h.effect fs,
    fun s b e h => ⟨fun o ho => ?_, fun f hf => ?_⟩⟩
  · have hwrite := FileSystem.write_of_outlet ho s.format e.rows
    by_cases hfits : fs.Fits o (Listing.bytes s.format e.rows)
    · rw [FileSystem.pour_of_fits hfits] at hwrite
      rw [h.ofWords_of_write_ok hwrite]
      exact ⟨fun _ => ⟨rfl, fun i hi => FileSystem.rewritten_put ho hi _⟩,
        fun hnot => absurd hfits hnot, fun hnone => FileSystem.put_of_fileIn_eq_none hnone _⟩
    · obtain ⟨n, hn, hpour⟩ := FileSystem.pour_of_not_fits hfits
      rw [hpour] at hwrite
      rw [h.ofWords_of_write_error hwrite]
      exact ⟨fun hyes => absurd hyes hfits,
        fun _ => ⟨Nat.one_ne_zero, fun i hi => ⟨n, hn, FileSystem.rewritten_put ho hi _⟩⟩,
        fun hnone => FileSystem.put_of_fileIn_eq_none hnone _⟩
  · rw [h.ofWords_of_write_error (FileSystem.write_of_outlet_error hf s.format e.rows)]
    exact ⟨Nat.one_ne_zero, rfl⟩

/-- A machine with an image and a note in the directory `/home`, and a link there that
stands for the image.  The program is started in that directory. -/
def imageAndLink (image : Bytes) : FileSystem where
  nodes := #[
    ⟨.directory 0 [("home", 1)], {}⟩,
    ⟨.directory 0 [("image", 2), ("note", 3), ("link", 4)], {}⟩,
    ⟨.file image, {}⟩,
    ⟨.file #[7], {}⟩,
    ⟨.link "/home/image", {}⟩]
  root := 0
  start := 1
  newFile := {}
  room := none

section

variable (image : Bytes)

/-- The directory and the image are what their names from the root lead to. -/
theorem locate_image (creates : Bool) (links : Nat) :
    (imageAndLink image).locate creates links 0 [.name "home", .name "image"] =
      .ok (.node 2) := by
  rw [FileSystem.locate_cons_of_node (j := 1) (by simp) rfl rfl,
    FileSystem.locate_cons_of_node (j := 2) (by simp) rfl rfl, FileSystem.locate]

/-- The word of the link. -/
theorem ofWord_image :
    Way.ofWord "/home/image" = .ok ⟨true, [.name "home", .name "image"]⟩ := by
  decide

/-- The image can be read by its own name. -/
theorem read_image : (imageAndLink image).read "/home/image" = .ok image := by
  have htarget : (imageAndLink image).target false "/home/image" = .ok (.node 2) :=
    FileSystem.target_eq_ok_iff.2 ⟨_, ofWord_image, locate_image image false _⟩
  rw [FileSystem.read, FileSystem.find_eq_ok_iff.2 htarget]
  rfl

/-- What is written through the link goes to the image. -/
theorem outlet_link : (imageAndLink image).outlet "../home/link" = .ok (.file 2) := by
  have hway : Way.ofWord "../home/link" = .ok ⟨false, [.up, .name "home", .name "link"]⟩ := by
    decide
  have htarget : (imageAndLink image).target true "../home/link" = .ok (.node 2) := by
    refine FileSystem.target_eq_ok_iff.2 ⟨_, hway, ?_⟩
    change (imageAndLink image).locate true (39 + 1) 1 _ = _
    rw [FileSystem.locate_cons_of_node (j := 0) (by simp [Step.isName]) rfl rfl,
      FileSystem.locate_cons_of_node (j := 1) (by simp) rfl rfl,
      FileSystem.locate_cons_of_link (j := 4) (by simp) rfl rfl ofWord_image]
    exact locate_image image true _
  rw [FileSystem.outlet, htarget]
  rfl

end

/-- An output that is the input, by other words, loses the image and holds the listing of
it instead. -/
theorem effect_ofWords_sameFile :
    ∃ e, Extracts ["/home/image", "../home/link"] (imageAndLink Extraction.bareFunction)
        (.ofFiles "/home/image" "../home/link") Extraction.bareFunction e ∧
      (imageAndLink Extraction.bareFunction).outlet "../home/link" = .ok (.file 2) ∧
      (ofWords ["/home/image", "../home/link"] (imageAndLink Extraction.bareFunction)).exitCode
        = 0 ∧
      (imageAndLink Extraction.bareFunction).Rewritten
        (ofWords ["/home/image", "../home/link"] (imageAndLink Extraction.bareFunction)).files
        "../home/link" 2 (Listing.bytes .text e.rows) := by
  have hextraction : Extraction.ofBytes (.ofFiles "/home/image" "../home/link")
      Extraction.bareFunction = .ok _ :=
    Extraction.ofBytesBy_of_symbols_eq_some
      (Image.parse_eq_ok_iff.2 Extraction.ofBytes_bareFunction) rfl
  have hextracts : Extracts ["/home/image", "../home/link"]
      (imageAndLink Extraction.bareFunction) (.ofFiles "/home/image" "../home/link")
      Extraction.bareFunction _ :=
    ⟨rfl, rfl, read_image _, hextraction⟩
  obtain ⟨-, -, -, hwritten⟩ := effect_ofWords ["/home/image", "../home/link"]
    (imageAndLink Extraction.bareFunction)
  obtain ⟨hexit, hfiles⟩ := ((hwritten _ _ _ hextracts).1 (.file 2) (outlet_link _)).1
    fun n hn => by cases hn
  exact ⟨_, hextracts, outlet_link _, hexit, hfiles 2 rfl⟩

end Outcome
end ParamAtlas

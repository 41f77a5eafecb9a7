/-
# What the lines of a listing tell

In a line nothing is escaped.  Its parts are told apart by the characters behind them:

| part | ends |
| --- | --- |
| name | at the first colon |
| digits of the address | at the first blank behind them |
| each parameter but the last | at the next comma |
| last parameter | at the bracket that ends the line |
| line | at its line end |

Where names and parameters are free of these characters (`Row.Plain`), a text can be cut
in only one way, so it tells the name, the address and the parameters of every row, but
for one case: a function without parameters and one with a single parameter that has no
name both leave the brackets empty (`Row.readParameters`).  So the text loses the place of a
parameter without a name if it is the only one.
-/

import Mathlib.Data.List.Basic
import ParamAtlas.Listing.Output
import ParamAtlas.Text.Blank

namespace ParamAtlas

namespace Row

/-- Neither the name nor a parameter has a character in it that sets parts of a line apart. -/
structure Plain (r : Row) : Prop where
  shown : ∀ c ∈ r.shown.toList, Text.isBlank c = false ∧ c ∉ [':', ',', '[', ']']
  parameters : ∀ p ∈ r.parameters, ∀ c ∈ p.toList, c ∉ [',', '[', ']', ':', '\n']

/-- What a row says besides its symbol. -/
def told (r : Row) : String × Address × List String := (r.shown, r.address, r.parameters)

/-- What the brackets tell of the parameters: without any they are as empty as with one
that has no name. -/
def readParameters (r : Row) : List String := if r.parameters = [] then [""] else r.parameters

/-- What can be read off the line of a row. -/
def asRead (r : Row) : String × Address × List String := (r.shown, r.address, r.readParameters)

end Row

namespace Listing

/-- A text is cut at a character in one way if it does not occur before. -/
theorem cut_inj {c : Char} {xs ys xs' ys' : List Char} (hxs : c ∉ xs) (hys : c ∉ ys)
    (h : xs ++ c :: xs' = ys ++ c :: ys') : xs = ys ∧ xs' = ys' := by
  have hsplit := congrArg (List.splitOn c) h
  rw [List.splitOn_append_cons_self_of_not_mem hxs,
    List.splitOn_append_cons_self_of_not_mem hys] at hsplit
  obtain ⟨rfl, -⟩ := List.cons.inj hsplit
  exact ⟨rfl, (List.cons.inj (List.append_cancel_left h)).2⟩

/-! ## Parameters -/

/-- The text between brackets, cut at its commas: each parameter but the first has a blank
before it. -/
def fields : List String → List (List Char)
  | [] => [[]]
  | p :: rest => p.toList :: rest.map fun q => ' ' :: q.toList

/-- The list in a line is cut into its fields by commas. -/
theorem toList_intercalate (ps : List String) :
    (", ".intercalate ps).toList = [','].intercalate (fields ps) := by
  induction ps with
  | nil => simp [fields]
  | cons p rest ih =>
    cases rest with
    | nil => simp [fields]
    | cons q rest =>
      have hjoined : [','].intercalate (fields (p :: q :: rest)) =
          p.toList ++ ',' :: ' ' :: [','].intercalate (fields (q :: rest)) := by
        simp [fields, List.intercalate_cons_cons, List.intercalate_cons_cons_left]
      rw [hjoined, ← ih, String.intercalate_cons_cons]
      simp

/-- Parameters without commas are found again between the commas. -/
theorem splitOn_intercalate {ps : List String} (h : ∀ p ∈ ps, ',' ∉ p.toList) :
    (", ".intercalate ps).toList.splitOn ',' = fields ps := by
  rw [toList_intercalate]
  cases ps with
  | nil => exact List.splitOn_nil ','
  | cons p rest =>
    refine List.splitOn_intercalate ',' (fun l hl => ?_) (by simp [fields])
    rw [fields, List.mem_cons, List.mem_map] at hl
    rcases hl with rfl | ⟨q, hq, rfl⟩
    · exact h p List.mem_cons_self
    · simpa using h q (List.mem_cons_of_mem p hq)

/-- Lists with something in them have the same fields only if they are the same. -/
theorem fields_cons_inj {p p' : String} {rest rest' : List String} :
    fields (p :: rest) = fields (p' :: rest') ↔ p :: rest = p' :: rest' := by
  have hblank : Function.Injective fun q : String => ' ' :: q.toList :=
    fun q q' h => String.toList_injective (List.cons.inj h).2
  simp only [fields, List.cons.injEq, String.toList_inj, hblank.list_map.eq_iff]

/-- Between the parameters there are commas and blanks only. -/
theorem notMem_intercalate {c : Char} (hcomma : c ≠ ',') (hblank : c ≠ ' ') {ps : List String}
    (h : ∀ p ∈ ps, c ∉ p.toList) : c ∉ (", ".intercalate ps).toList := by
  induction ps with
  | nil => simp
  | cons p rest ih =>
    rw [List.forall_mem_cons] at h
    cases rest with
    | nil => simpa using h.1
    | cons q rest =>
      rw [String.intercalate_cons_cons, String.toList_append, String.toList_append]
      simp only [List.mem_append, not_or]
      exact ⟨⟨h.1, by simp [hcomma, hblank]⟩, ih h.2⟩

/-! ## Lines -/

variable {r r' : Row} {rs rs' : List Row}

/-- A line, character by character. -/
theorem toList_line (r : Row) :
    r.line.toList = r.shown.toList ++ ':' :: ' ' :: '0' :: 'x' ::
      ((Hex.digits r.address.toNat).toList ++ ' ' :: ':' :: ' ' :: '[' ::
        ((", ".intercalate r.parameters).toList ++ [']'])) := by
  simp [Row.line, Hex.marked]

/-- A plain name has no colon. -/
theorem colon_notMem_shown (h : r.Plain) : ':' ∉ r.shown.toList :=
  fun hc => (h.shown _ hc).2 (by decide)

/-- Plain parameters have no comma. -/
theorem comma_notMem_parameters (h : r.Plain) : ∀ p ∈ r.parameters, ',' ∉ p.toList :=
  fun p hp hc => h.parameters p hp _ hc (by decide)

/-- What is read of a row has the fields of its parameters. -/
theorem fields_readParameters (r : Row) : fields r.readParameters = fields r.parameters := by
  unfold Row.readParameters
  split
  · rename_i hnone
    simp [hnone, fields]
  · rfl

/-- There is text between the brackets for one parameter at least. -/
theorem fields_parameters_eq_iff :
    fields r.parameters = fields r'.parameters ↔ r.readParameters = r'.readParameters := by
  have hcons : ∀ r : Row, ∃ p rest, r.readParameters = p :: rest := fun r => by
    unfold Row.readParameters
    split
    · exact ⟨"", [], rfl⟩
    · rename_i hsome
      exact List.exists_cons_of_ne_nil hsome
  obtain ⟨p, rest, hp⟩ := hcons r
  obtain ⟨p', rest', hp'⟩ := hcons r'
  rw [← fields_readParameters, ← fields_readParameters, hp, hp', fields_cons_inj]

/-- **The line of a plain row** tells what can be read off it, and nothing else. -/
theorem line_eq_iff (h : r.Plain) (h' : r'.Plain) : r.line = r'.line ↔ r.asRead = r'.asRead := by
  have hasRead : r.asRead = r'.asRead ↔
      r.shown = r'.shown ∧ r.address = r'.address ∧ fields r.parameters = fields r'.parameters := by
    rw [fields_parameters_eq_iff, Row.asRead, Row.asRead, Prod.mk.injEq, Prod.mk.injEq]
  rw [hasRead, ← String.toList_inj, toList_line, toList_line]
  constructor
  · intro hline
    obtain ⟨hshown, hrest⟩ := cut_inj (colon_notMem_shown h) (colon_notMem_shown h') hline
    simp only [List.cons.injEq, true_and] at hrest
    have hdigit : ∀ d, Nat.digitChar d ≠ ' ' := fun d => Nat.digitChar_ne ' ' (by decide)
    obtain ⟨haddress, hbrackets⟩ :=
      cut_inj (Hex.notMem_digits hdigit _) (Hex.notMem_digits hdigit _) hrest
    simp only [List.cons.injEq, true_and] at hbrackets
    have hjoined := (List.append_singleton_inj.1 hbrackets).1
    refine ⟨String.toList_inj.1 hshown,
      UInt64.toNat_inj.1 (Hex.digits_inj (String.toList_inj.1 haddress)), ?_⟩
    rw [← splitOn_intercalate (comma_notMem_parameters h), hjoined,
      splitOn_intercalate (comma_notMem_parameters h')]
  · rintro ⟨hshown, haddress, hfields⟩
    rw [toList_intercalate, toList_intercalate, hshown, haddress, hfields]

/-- The line of a plain row is one line. -/
theorem newline_notMem_line (h : r.Plain) : '\n' ∉ r.line.toList := by
  have hshown : '\n' ∉ r.shown.toList :=
    fun hc => absurd (h.shown _ hc).1 (by decide)
  have hdigits : '\n' ∉ (Hex.digits r.address.toNat).toList :=
    Hex.notMem_digits (fun d => Nat.digitChar_ne '\n' (by decide)) _
  have hjoined : '\n' ∉ (", ".intercalate r.parameters).toList :=
    notMem_intercalate (by decide) (by decide)
      fun p hp hc => h.parameters p hp _ hc (by decide)
  simp only [toList_line, List.mem_append, List.mem_cons, List.not_mem_nil, hshown, hdigits,
    hjoined, or_false, false_or]
  decide

/-- A text is the line of its first row, the end of that line, and the rest. -/
theorem toList_text_cons (r : Row) (rs : List Row) :
    (text .text (r :: rs)).toList = r.line.toList ++ '\n' :: (text .text rs).toList := by
  simp [text, pieces]

/-- **The text of plain rows** tells what can be read off each of them. -/
theorem text_eq_iff (h : ∀ r ∈ rs, r.Plain) (h' : ∀ r ∈ rs', r.Plain) :
    text .text rs = text .text rs' ↔ rs.map Row.asRead = rs'.map Row.asRead := by
  rw [← String.toList_inj]
  induction rs generalizing rs' with
  | nil =>
    cases rs' with
    | nil => simp
    | cons r' rest' => simp [text, pieces]
  | cons r rest ih =>
    cases rs' with
    | nil => simp [text, pieces]
    | cons r' rest' =>
      rw [List.forall_mem_cons] at h h'
      rw [toList_text_cons, toList_text_cons, List.map_cons, List.map_cons, List.cons.injEq,
        ← line_eq_iff h.1 h'.1, ← ih h.2 h'.2, ← String.toList_inj]
      constructor
      · exact cut_inj (newline_notMem_line h.1) (newline_notMem_line h'.1)
      · rintro ⟨hline, hrest⟩
        rw [hline, hrest]

/-- **Texts of plain rows.**  Two lists of plain rows are written alike exactly if the same
can be read off them, row by row: the name, the address and the parameters, where no
parameters and a single one without a name are taken for each other. -/
theorem write_text_eq_iff (h : ∀ r ∈ rs, r.Plain) (h' : ∀ r ∈ rs', r.Plain) :
    write .text rs (.fresh none) = write .text rs' (.fresh none) ↔
      rs.map Row.asRead = rs'.map Row.asRead := by
  rw [write_fresh_none, write_fresh_none, Prod.mk.injEq, Sink.mk.injEq, text_eq_iff h h']
  simp only [true_and, and_true]

/-- A function with these parameters. -/
def withParameters (ps : List String) : Row := ⟨"f", "f", 0x10, ps⟩

/-- A row with such parameters is plain. -/
theorem plain_withParameters {ps : List String} (h : ∀ p ∈ ps, p = "" ∨ p = "a") :
    ∀ r ∈ [withParameters ps], r.Plain := by
  refine List.forall_mem_singleton.2 ⟨fun c hc => ?_, fun p hp c hc => ?_⟩
  · have hf : c = 'f' := by simpa [withParameters] using hc
    subst hf
    decide
  · rcases h p hp with rfl | rfl
    · simp at hc
    · have ha : c = 'a' := by simpa using hc
      subst ha
      decide

/-- A parameter without a name keeps its place if it is not the only one. -/
theorem write_text_eq_iff_withParameters :
    (∀ r ∈ [withParameters ["a"]], r.Plain) ∧ (∀ r ∈ [withParameters ["a", ""]], r.Plain) ∧
      (write .text [withParameters ["a"]] (.fresh none) =
          write .text [withParameters ["a", ""]] (.fresh none) ↔
        [withParameters ["a"]].map Row.asRead = [withParameters ["a", ""]].map Row.asRead) := by
  have h : ∀ r ∈ [withParameters ["a"]], r.Plain := plain_withParameters (by simp)
  have h' : ∀ r ∈ [withParameters ["a", ""]], r.Plain := plain_withParameters (by simp)
  exact ⟨h, h', write_text_eq_iff h h'⟩

/-- **A single parameter without a name** is lost: the text is that of a function without
parameters. -/
theorem not_forall_told :
    ¬ ∀ rs rs' : List Row, (∀ r ∈ rs, r.Plain) → (∀ r ∈ rs', r.Plain) →
      write .text rs (.fresh none) = write .text rs' (.fresh none) →
        rs.map Row.told = rs'.map Row.told := by
  intro hall
  have hnone : ∀ r ∈ [withParameters []], r.Plain := plain_withParameters (by simp)
  have hone : ∀ r ∈ [withParameters [""]], r.Plain := plain_withParameters (by simp)
  have hsame : write .text [withParameters []] (.fresh none) =
      write .text [withParameters [""]] (.fresh none) := by
    rw [write_fresh_none, write_fresh_none, (text_eq_iff hnone hone).2 rfl]
  exact absurd (hall _ _ hnone hone hsame) (by simp [Row.told, withParameters])

end Listing
end ParamAtlas

import Assay.Diagnostic.Rendering
import Assay.Proofs.Text.Lines

/-!
# Where the caret stands

A report can be read back: its last line holds the caret behind its dashes, and the line above
shows the text that it points into, after a number and a bar.  The dashes count the bytes from
the end of the indentation up to the position, whereas the text shown starts with the first
character that is not blank.  So the caret stands under the character at the position if only
spaces indent the line and one byte makes each character in between, and too far to the right
if not.
-/

namespace Assay

namespace Text

variable {c : Char} {left right : List Char}

/-! ## Cutting texts -/

private theorem dropWhile_append_cons {inClass : Char → Bool} (hc : inClass c = false) :
    (left ++ c :: right).dropWhile inClass = left.dropWhile inClass ++ c :: right := by
  induction left with
  | nil => simp [hc]
  | cons first left ih =>
      rw [List.cons_append, List.dropWhile_cons, List.dropWhile_cons]
      split
      · exact ih
      · rfl

private theorem trim_append_cons (hc : isBlank c = false) :
    trim (left ++ c :: right) = left.dropWhile isBlank ++ c :: right.rdropWhile isBlank := by
  rw [trim, dropWhile_append_cons hc, List.reverse_append, List.reverse_cons, List.append_assoc,
    List.singleton_append, dropWhile_append_cons hc]
  simp [List.rdropWhile]

private theorem length_le_byteLength (text : List Char) : text.length ≤ byteLength text := by
  induction text with
  | nil => simp
  | cons c rest ih =>
      have hpos := c.utf8Size_pos
      simp
      omega

private theorem byteLength_eq_length_iff {text : List Char} :
    byteLength text = text.length ↔ ∀ c ∈ text, c.utf8Size = 1 := by
  induction text with
  | nil => simp
  | cons c rest ih =>
      have hpos := c.utf8Size_pos
      have hle := length_le_byteLength rest
      rw [List.forall_mem_cons, ← ih, byteLength_cons, List.length_cons]
      omega

def above (text : List Char) : List Char := (text.rdropWhile (· ≠ '\n')).dropLast

private theorem above_append (h : '\n' ∉ right) : above (left ++ '\n' :: right) = left := by
  obtain ⟨hreverse, hright⟩ := reverse_newline_append left h
  rw [above, List.rdropWhile, hreverse, List.dropWhile_append_of_pos hright]
  simp

end Text

/-! ## Reading a report -/

namespace Report

def text (report : String) : List Char :=
  ((Text.lastLine (Text.above report.toList)).dropWhile Char.isDigit).drop 3

def dashes (report : String) : Nat :=
  ((Text.lastLine report.toList).dropLast.rtakeWhile (· = '-')).length

end Report

namespace Diagnostic

open Text (byteLength isBlank lastLine above lineAt?)

variable {source : String} {diagnostic : Diagnostic} {line : Text.Line}

private theorem toList_render (color : Bool) (file : String)
    (h : lineAt? source diagnostic.position.offset.toNat = some line) :
    ∃ heading, (diagnostic.render color file source).toList =
      (heading ++ '\n' :: ((toString line.number).toList ++
        ' ' :: '|' :: ' ' :: excerptText line.text.toList)) ++
      '\n' :: (List.replicate ((toString line.number).length + 1) ' ' ++
        '|' :: ' ' :: List.replicate (caretColumn line) '-' ++ ['^']) := by
  refine ⟨(Styled.emphasise color diagnostic.header ++ "\n-> " ++ file).toList ++ '\n' ::
    (List.replicate ((toString line.number).length + 1) ' ' ++ ['|']), ?_⟩
  have hbar : "|".length = 1 := by decide
  have hcaret : "^".length = 1 := by decide
  simp [render, h, excerpt, alignRight, hbar, hcaret]

private theorem dashes_render (color : Bool) (file : String)
    (h : lineAt? source diagnostic.position.offset.toNat = some line) :
    Report.dashes (diagnostic.render color file source) = caretColumn line := by
  obtain ⟨heading, hreport⟩ := toList_render color file h
  rw [Report.dashes, hreport, Text.lastLine_append (by simp [List.mem_replicate]),
    List.dropLast_concat, List.rtakeWhile]
  have hdashes : ∀ c ∈ List.replicate (caretColumn line) '-', decide (c = '-') = true := by
    simp [List.mem_replicate]
  simp [List.takeWhile_append_of_pos hdashes]

private theorem text_render (color : Bool) (file : String)
    (h : lineAt? source diagnostic.position.offset.toNat = some line)
    (hnewline : '\n' ∉ excerptText line.text.toList) :
    Report.text (diagnostic.render color file source) = excerptText line.text.toList := by
  obtain ⟨heading, hreport⟩ := toList_render color file h
  have hdigits : ∀ c ∈ (toString line.number).toList, c.isDigit := by
    intro c hc
    rw [Nat.toString_eq_repr, Nat.toList_repr] at hc
    exact Nat.isDigit_of_mem_toDigits (by decide) (by decide) hc
  rw [Report.text, hreport, Text.above_append (by simp [List.mem_replicate]), Text.lastLine_append,
    List.dropWhile_append_of_pos hdigits]
  · simp
  · have hnumber : '\n' ∉ (toString line.number).toList := by
      intro hmem
      exact absurd (hdigits _ hmem) (by decide)
    simp only [List.mem_append, not_or]
    exact ⟨hnumber, by simpa using hnewline⟩

/-! ## The caret -/

private theorem newline_notMem_rdropWhile {rest : List Char} (h : '\n' ∉ rest.dropLast) :
    '\n' ∉ rest.rdropWhile isBlank := by
  obtain rfl | ⟨others, last, rfl⟩ := List.eq_nil_or_concat rest
  · simp
  · rw [List.concat_eq_append, List.dropLast_concat] at *
    by_cases hlast : isBlank last
    · rw [List.rdropWhile_concat_pos _ _ _ hlast]
      exact fun hmem => h ((List.rdropWhile_prefix isBlank others).subset hmem)
    · rw [List.rdropWhile_concat_neg _ _ _ hlast]
      have hne : last ≠ '\n' := by
        rintro rfl
        exact hlast (by decide)
      simp [h, hne.symm]

private theorem ne_space_of_not_isBlank {c : Char} (hc : isBlank c = false) :
    decide (c = ' ') = false := by
  rw [decide_eq_false_iff_not]
  rintro rfl
  exact absurd hc (by decide)

private theorem drop_indentation (line : List Char) :
    line.drop (indentation line) = line.dropWhile (· = ' ') := by
  have hsplit := List.takeWhile_append_dropWhile (p := (· = ' ')) (l := line)
  nth_rewrite 2 [← hsplit]
  rw [indentation, List.drop_left]

private theorem excerptText_append_cons {front rest : List Char} {c : Char}
    (hc : isBlank c = false) :
    excerptText (front ++ c :: rest) =
      (front.dropWhile (· = ' ')).dropWhile isBlank ++ c :: rest.rdropWhile isBlank := by
  rw [excerptText, drop_indentation, Text.dropWhile_append_cons (ne_space_of_not_isBlank hc),
    Text.trim_append_cons hc]

private theorem byteLength_eq_indentation_add (line : List Char) :
    byteLength line = indentation line + byteLength (line.dropWhile (· = ' ')) := by
  have hspaces : byteLength (line.takeWhile (· = ' ')) = indentation line := by
    rw [indentation, Text.byteLength_eq_length_iff]
    intro space hspace
    have heq : space = ' ' := by simpa using List.mem_takeWhile_imp hspace
    rw [heq]
    decide
  rw [← hspaces, ← Text.byteLength_append, List.takeWhile_append_dropWhile]

private theorem caretColumn_append_cons (number : Nat) {front : List Char} (rest : List Char)
    {c : Char} (hc : isBlank c = false) :
    caretColumn ⟨number, String.ofList (front ++ c :: rest), byteLength front⟩ =
      byteLength (front.dropWhile (· = ' ')) := by
  have hline := byteLength_eq_indentation_add (front ++ c :: rest)
  rw [Text.dropWhile_append_cons (ne_space_of_not_isBlank hc), Text.byteLength_append,
    Text.byteLength_append] at hline
  simp only [caretColumn, String.toList_ofList]
  omega

private theorem length_dropWhile_lt {text : List Char}
    (h : ¬ (text.dropWhile isBlank = text ∧ ∀ c ∈ text.dropWhile isBlank, c.utf8Size = 1)) :
    (text.dropWhile isBlank).length < byteLength text := by
  have hsplit : byteLength (text.takeWhile isBlank) + byteLength (text.dropWhile isBlank) =
      byteLength text := by
    rw [← Text.byteLength_append, List.takeWhile_append_dropWhile]
  have hblanks := Text.length_le_byteLength (text.takeWhile isBlank)
  have hshown := Text.length_le_byteLength (text.dropWhile isBlank)
  rw [← Text.byteLength_eq_length_iff, not_and_or] at h
  obtain hblank | hbytes := h
  · have hpos : 0 < (text.takeWhile isBlank).length := by
      rw [List.length_pos_iff]
      intro hnil
      have htext := List.takeWhile_append_dropWhile (p := isBlank) (l := text)
      rw [hnil, List.nil_append] at htext
      exact hblank htext
    omega
  · omega

/-- The text shown holds the character at the position behind everything between the first
character of the line that is not blank and the position.  The caret stands under it if there
are only spaces before that and only characters of one byte in between; otherwise it stands too
far to the right. -/
theorem caret_of_render (color : Bool) (file : String) {source : String} {diagnostic : Diagnostic}
    {left right : List Char} {c : Char} (hsource : source.toList = left ++ c :: right)
    (hoffset : diagnostic.position.offset.toNat = byteLength left) (hc : isBlank c = false) :
    let report := diagnostic.render color file source
    let unindented := (lastLine left).dropWhile (· = ' ')
    let shown := unindented.dropWhile isBlank
    (∃ rest, Report.text report = shown ++ c :: rest) ∧
    Report.dashes report = byteLength unindented ∧
    (shown = unindented ∧ (∀ before ∈ shown, before.utf8Size = 1) →
      (Report.text report)[Report.dashes report]? = some c) ∧
    (¬ (shown = unindented ∧ ∀ before ∈ shown, before.utf8Size = 1) →
      shown.length < Report.dashes report) := by
  intro report unindented shown
  obtain ⟨number, rest, hrest, hline⟩ := Text.lineAt?_of_append hsource
  rw [← hoffset] at hline
  have hexcerpt : excerptText (lastLine left ++ c :: rest) =
      shown ++ c :: rest.rdropWhile isBlank := excerptText_append_cons hc
  have hnewline : '\n' ∉ excerptText (lastLine left ++ c :: rest) := by
    have hshown : '\n' ∉ shown := by
      intro hmem
      have hfront := (List.dropWhile_suffix _).subset ((List.dropWhile_suffix _).subset hmem)
      simpa using List.mem_rtakeWhile_imp hfront
    have hchar : c ≠ '\n' := by
      rintro rfl
      exact absurd hc (by decide)
    rw [hexcerpt, List.mem_append, List.mem_cons, not_or, not_or]
    exact ⟨hshown, hchar.symm, newline_notMem_rdropWhile hrest⟩
  have htext : Report.text report = shown ++ c :: rest.rdropWhile isBlank := by
    rw [text_render color file hline (by simpa using hnewline), String.toList_ofList, hexcerpt]
  have hdashes : Report.dashes report = byteLength unindented := by
    rw [dashes_render color file hline, caretColumn_append_cons number rest hc]
  refine ⟨⟨_, htext⟩, hdashes, ?_, ?_⟩
  · rintro ⟨hunindented, hbytes⟩
    rw [hdashes, ← hunindented, Text.byteLength_eq_length_iff.mpr hbytes, htext]
    simp
  · intro hmisaligned
    rw [hdashes]
    exact length_dropWhile_lt hmisaligned

theorem caret_of_render_spaces :
    let source := "declare x: int = 1;\n    x = true;\n"
    let diagnostic : Diagnostic := ⟨.assignmentTypeMismatch "x", .ofBytes "test.lang" 28⟩
    let report := diagnostic.render false "test.lang" source
    Report.dashes report = 4 ∧ (Report.text report)[4]? = some 't' := by
  intro source diagnostic report
  have hsource : source.toList =
      "declare x: int = 1;\n    x = ".toList ++ 't' :: "rue;\n".toList := by decide
  have hoffset : diagnostic.position.offset.toNat =
      byteLength "declare x: int = 1;\n    x = ".toList := by decide
  obtain ⟨-, hdashes, haligned, -⟩ :=
    caret_of_render false "test.lang" hsource hoffset (by decide)
  have hfour : Report.dashes report = 4 := hdashes.trans (by decide)
  have hcaret := haligned ⟨by decide, Text.byteLength_eq_length_iff.mp (by decide)⟩
  rw [hfour] at hcaret
  exact ⟨hfour, hcaret⟩

/-- A tab in front of the line is not shown, but moves the caret. -/
theorem not_caret_under_position :
    ¬ ∀ (file source : String) (diagnostic : Diagnostic) (left right : List Char) (c : Char),
      source.toList = left ++ c :: right →
      diagnostic.position.offset.toNat = byteLength left → isBlank c = false →
      (Report.text (diagnostic.render false file source))[
        Report.dashes (diagnostic.render false file source)]? = some c := by
  intro h
  let source := "declare x: int = 1;\n\tx = true;\n"
  let diagnostic : Diagnostic := ⟨.assignmentTypeMismatch "x", .ofBytes "test.lang" 25⟩
  have hcaret := h "test.lang" source diagnostic "declare x: int = 1;\n\tx = ".toList
    "rue;\n".toList 't' (by decide) (by decide) (by decide)
  have hline : lineAt? source diagnostic.position.offset.toNat = some ⟨2, "\tx = true;\n", 5⟩ := by
    decide
  rw [dashes_render false "test.lang" hline, text_render false "test.lang" hline (by decide)]
    at hcaret
  exact absurd hcaret (by decide)

end Diagnostic

end Assay

import Mathlib.Algebra.GroupWithZero.Nat
import Mathlib.Data.List.DropRight
import Mathlib.Tactic.SplitIfs
import Assay.Text.Lines

/-!
# Locating offsets

There is one way to cut a text after each of its newlines.  The line of an offset is the piece
that holds it, numbered by the newlines before it, and the column counts bytes from the start
of the piece.  All of this is about bytes: an offset may lie inside a character, and only the
encoding of a newline contains the byte of a newline.
-/

namespace Assay.Text

/-! ## Bytes -/

def bytes (text : List Char) : List UInt8 := text.flatMap String.utf8EncodeChar

private theorem bytes_append (left right : List Char) :
    bytes (left ++ right) = bytes left ++ bytes right := by
  simp [bytes]

private theorem length_bytes (text : List Char) : (bytes text).length = byteLength text := by
  induction text with
  | nil => rfl
  | cons c rest ih => simp [bytes, ← ih]

private theorem toList_toUTF8 (source : String) :
    source.toUTF8.data.toList = bytes source.toList := by
  rw [String.toUTF8_eq_toByteArray, ← String.utf8Encode_toList, List.utf8Encode]
  simp [bytes]

private theorem byteLength_toList (source : String) :
    byteLength source.toList = source.utf8ByteSize := by
  rw [← length_bytes, ← toList_toUTF8]
  rfl

private theorem byteLength_flatten (pieces : List (List Char)) :
    byteLength pieces.flatten = (pieces.map byteLength).sum := by
  induction pieces with
  | nil => rfl
  | cons piece pieces ih => simp [ih]

private theorem count_utf8EncodeChar (c : Char) :
    (String.utf8EncodeChar c).count 10 = if c = '\n' then 1 else 0 := by
  by_cases hc : c = '\n'
  · rw [hc]
    decide
  · have hcode : c.toNat ≠ 10 := fun h => hc (Char.toNat_inj.mp h)
    rw [if_neg hc, List.count_eq_zero]
    -- The bytes of a longer encoding are all at least 128.
    simp only [String.utf8EncodeChar, Char.toNat_val]
    split_ifs <;> simp [← UInt8.toNat_inj] <;> omega

private theorem count_bytes (text : List Char) : (bytes text).count 10 = text.count '\n' := by
  induction text with
  | nil => rfl
  | cons c rest ih =>
      rw [List.count_cons, ← ih]
      simp [bytes, count_utf8EncodeChar, Nat.add_comm]

/-! ## Cutting after newlines -/

/-- The pieces of a text that is cut after each newline and nowhere else. -/
structure Cut (text : List Char) (pieces : List (List Char)) : Prop where
  joined : pieces.flatten = text
  inside : ∀ piece ∈ pieces, piece ≠ [] ∧ '\n' ∉ piece.dropLast
  ended : ∀ piece ∈ pieces.dropLast, piece.getLast? = some '\n'

namespace Cut

variable {c next : Char} {text line : List Char} {pieces others : List (List Char)}

theorem nil : Cut [] [] := ⟨rfl, by simp, by simp⟩

theorem single (c : Char) : Cut [c] [[c]] := ⟨by simp, by simp, by simp⟩

theorem newline (h : Cut text pieces) : Cut ('\n' :: text) (['\n'] :: pieces) where
  joined := by simp [h.joined]
  inside := by simpa using h.inside
  ended := by
    cases pieces with
    | nil => simp
    | cons piece pieces => simpa using h.ended

theorem extend (hc : c ≠ '\n') (h : Cut text (line :: others)) :
    Cut (c :: text) ((c :: line) :: others) where
  joined := by simp [← h.joined]
  inside := by
    obtain ⟨⟨hline, hnewline⟩, hothers⟩ := List.forall_mem_cons.mp h.inside
    refine List.forall_mem_cons.mpr ⟨⟨by simp, ?_⟩, hothers⟩
    rw [List.dropLast_cons_of_ne_nil hline]
    simp [hc.symm, hnewline]
  ended := by
    obtain ⟨⟨hline, -⟩, -⟩ := List.forall_mem_cons.mp h.inside
    obtain ⟨first, line, rfl⟩ := List.exists_cons_of_ne_nil hline
    cases others with
    | nil => simp
    | cons piece others => simpa using h.ended

theorem tail (h : Cut (c :: text) ([c] :: others)) : Cut text others where
  joined := by simpa using h.joined
  inside := (List.forall_mem_cons.mp h.inside).2
  ended := by
    cases others with
    | nil => simp
    | cons piece others =>
        have hended := h.ended
        rw [List.dropLast_cons_of_ne_nil (by simp)] at hended
        exact (List.forall_mem_cons.mp hended).2

theorem shorten (h : Cut (c :: text) ((c :: next :: line) :: others)) :
    Cut text ((next :: line) :: others) where
  joined := by simpa using h.joined
  inside := by
    obtain ⟨⟨-, hnewline⟩, hothers⟩ := List.forall_mem_cons.mp h.inside
    rw [List.dropLast_cons_cons] at hnewline
    exact List.forall_mem_cons.mpr
      ⟨⟨by simp, fun hmem => hnewline (List.mem_cons_of_mem _ hmem)⟩, hothers⟩
  ended := by
    cases others with
    | nil => simp
    | cons piece others => simpa using h.ended

end Cut

private theorem cut_lines (text : List Char) : Cut text (lines text) := by
  induction text with
  | nil => exact .nil
  | cons c rest ih =>
      rw [lines]
      split
      · next hc => exact hc ▸ ih.newline
      · next hc =>
          split
          · next hlines =>
              rw [hlines] at ih
              rw [← ih.joined]
              exact .single c
          · next line others hlines => exact .extend hc (hlines ▸ ih)

theorem Cut.eq_lines {text : List Char} {pieces : List (List Char)} (h : Cut text pieces) :
    pieces = lines text := by
  induction text generalizing pieces with
  | nil =>
      rcases pieces with _ | ⟨piece, others⟩
      · rfl
      · have hpiece := (h.inside piece (by simp)).1
        have hjoined := h.joined
        simp [hpiece] at hjoined
  | cons c rest ih =>
      rcases pieces with _ | ⟨_ | ⟨first, line⟩, others⟩
      · cases h.joined
      · exact absurd rfl (h.inside [] (by simp)).1
      · obtain ⟨rfl, hjoined⟩ : first = c ∧ line ++ others.flatten = rest := by
          simpa using h.joined
        by_cases hfirst : first = '\n'
        · -- A newline ends its piece.
          have hline : line = [] := by
            have hinside := (h.inside (first :: line) (by simp)).2
            rcases line with _ | ⟨next, line⟩
            · rfl
            · simp [hfirst] at hinside
          subst hline
          rw [lines, if_pos hfirst, ← ih h.tail]
        · rw [lines, if_neg hfirst]
          rcases line with _ | ⟨next, line⟩
          · -- Any other character ends a piece only together with the text.
            have hothers : others = [] := by
              have hended := h.ended
              rcases others with _ | ⟨piece, others⟩
              · rfl
              · simp [hfirst] at hended
            subst hothers
            simp [← hjoined, lines]
          · rw [← ih h.shorten]

/-- There is one way to cut a text. -/
theorem cut_iff {text : List Char} {pieces : List (List Char)} :
    Cut text pieces ↔ pieces = lines text := by
  constructor
  · exact Cut.eq_lines
  · rintro rfl
    exact cut_lines text

/-! ## Newlines before an offset -/

private theorem count_of_ended {piece : List Char} (hinside : '\n' ∉ piece.dropLast)
    (hended : piece.getLast? = some '\n') : piece.count '\n' = 1 := by
  obtain ⟨others, rfl⟩ := List.getLast?_eq_some_iff.mp hended
  rw [List.dropLast_concat] at hinside
  simp [List.count_eq_zero.mpr hinside]

private theorem count_take_bytes {piece : List Char} (hinside : '\n' ∉ piece.dropLast)
    {column : Nat}
    (hcolumn : column < byteLength piece) : ((bytes piece).take column).count 10 = 0 := by
  obtain rfl | ⟨others, last, rfl⟩ := List.eq_nil_or_concat piece
  · simp at hcolumn
  · rw [List.concat_eq_append, List.dropLast_concat] at *
    by_cases hlast : last = '\n'
    · subst hlast
      have hsize : ('\n').utf8Size = 1 := by decide
      simp only [byteLength_append, byteLength_cons, byteLength_nil, hsize] at hcolumn
      rw [bytes_append, List.take_append_of_le_length (by rw [length_bytes]; omega)]
      have hsublist := (List.take_sublist column (bytes others)).count_le 10
      rw [count_bytes, List.count_eq_zero.mpr hinside] at hsublist
      omega
    · have hnone : (others ++ [last]).count '\n' = 0 := by
        rw [List.count_eq_zero]
        simp [hinside, Ne.symm hlast]
      have hsublist := (List.take_sublist column (bytes (others ++ [last]))).count_le 10
      rw [count_bytes, hnone] at hsublist
      omega

theorem Cut.count_before {text piece : List Char} {before after : List (List Char)}
    (h : Cut text (before ++ piece :: after)) : before.flatten.count '\n' = before.length := by
  have hcount : ∀ line ∈ before, line.count '\n' = 1 := by
    intro line hline
    refine count_of_ended (h.inside line (by simp [hline])).2 (h.ended line ?_)
    rw [List.dropLast_append_of_ne_nil (by simp)]
    exact List.mem_append_left _ hline
  rw [List.count_flatten, List.map_congr_left hcount]
  simp

theorem Cut.count_bytes_before {text piece : List Char} {before after : List (List Char)}
    (h : Cut text (before ++ piece :: after)) {column : Nat} (hcolumn : column < byteLength piece) :
    ((bytes text).take (byteLength before.flatten + column)).count 10 = before.length := by
  have htext : bytes text = bytes before.flatten ++ (bytes piece ++ bytes after.flatten) := by
    simp [← h.joined, bytes_append]
  have hpiece := count_take_bytes (h.inside piece (by simp)).2 hcolumn
  rw [htext, ← length_bytes, List.take_length_add_append,
    List.take_append_of_le_length (by rw [length_bytes]; omega), List.count_append, count_bytes,
    h.count_before, hpiece, Nat.add_zero]

/-! ## The line of an offset -/

/-- The walk stops on the piece that holds the offset, or on the last one at the very end. -/
theorem locate_eq {pieces : List (List Char)} (hpieces : pieces ≠ []) (number offset : Nat)
    (h : offset ≤ byteLength pieces.flatten) :
    ∃ before piece after column, pieces = before ++ piece :: after ∧
      locate number offset pieces = ⟨number + before.length, String.ofList piece, column⟩ ∧
      byteLength before.flatten + column = offset ∧
      (offset < byteLength pieces.flatten → column < byteLength piece) ∧
      (offset = byteLength pieces.flatten → after = [] ∧ column = byteLength piece) := by
  fun_induction locate number offset pieces with
  | case1 => exact absurd rfl hpieces
  | case2 number offset last => exact ⟨[], last, [], offset, by simp⟩
  | case3 number offset line next others hoffset =>
      refine ⟨[], line, next :: others, offset, by simp, rfl, by simp, fun _ => hoffset, ?_⟩
      intro heq
      simp at heq
      omega
  | case4 number offset line next others hoffset ih =>
      have htotal : byteLength (line :: next :: others).flatten =
          byteLength line + byteLength (next :: others).flatten := by simp
      obtain ⟨before, piece, after, column, hsplit, hline, hcolumn, hinside, hend⟩ :=
        ih (by simp) (by omega)
      refine ⟨line :: before, piece, after, column, by simp [hsplit], ?_, ?_, ?_, ?_⟩
      · rw [hline, List.length_cons, Nat.add_right_comm]
        rfl
      · simp only [List.flatten_cons, byteLength_append]
        omega
      · exact fun hlt => hinside (by omega)
      · exact fun heq => hend (by omega)

private theorem lineAt?_eq {source : String} (hsource : source ≠ "") (offset : Nat)
    (h : offset ≤ byteLength source.toList) :
    ∃ before piece after column, Cut source.toList (before ++ piece :: after) ∧
      lineAt? source offset = some ⟨before.length + 1, String.ofList piece, column⟩ ∧
      byteLength before.flatten + column = offset ∧
      (offset < byteLength source.toList → column < byteLength piece) ∧
      (offset = byteLength source.toList → after = [] ∧ column = byteLength piece) := by
  have hcut := cut_lines source.toList
  have hlines : lines source.toList ≠ [] := by
    intro hnil
    have hjoined := hcut.joined
    rw [hnil, List.flatten_nil] at hjoined
    exact hsource (String.toList_eq_nil_iff.mp hjoined.symm)
  obtain ⟨before, piece, after, column, hsplit, hline, hcolumn, hinside, hend⟩ :=
    locate_eq hlines 1 offset (by rwa [hcut.joined])
  rw [hcut.joined] at hinside hend
  refine ⟨before, piece, after, column, hsplit ▸ hcut, ?_, hcolumn, hinside, hend⟩
  rw [lineAt?, if_neg (by omega), hline, Nat.add_comm]

/-- An offset beyond the end lies on no line.  Any other lies on one: in a text with
characters, it is the piece that holds the offset, or the last one at the very end; in the
empty text, it is an empty first line.  The number of the line counts the newlines before the
offset. -/
theorem lineAt?_exact (source : String) (offset : Nat) :
    (lineAt? source offset = none ↔ source.utf8ByteSize < offset) ∧
    ∀ line, lineAt? source offset = some line →
      (source = "" → line = ⟨1, "", 0⟩) ∧
      (source ≠ "" → ∃ before after,
        (∀ pieces, Cut source.toList pieces ↔ pieces = before ++ line.text.toList :: after) ∧
        line.number = before.length + 1 ∧
        (before.map byteLength).sum + line.column = offset ∧
        (offset < source.utf8ByteSize → line.column < line.text.utf8ByteSize) ∧
        (offset = source.utf8ByteSize →
          after = [] ∧ line.column = line.text.utf8ByteSize)) ∧
      (offset < source.utf8ByteSize →
        line.number = 1 + (source.toUTF8.data.toList.take offset).count 10) := by
  constructor
  · simp [lineAt?, byteLength_toList]
  · intro line hline
    have hwithin : offset ≤ byteLength source.toList := by
      rw [lineAt?] at hline
      split at hline
      · cases hline
      · omega
    by_cases hempty : source = ""
    · subst hempty
      have hoffset : offset = 0 := by simpa using hwithin
      rw [hoffset] at hline
      have heq : line = ⟨1, "", 0⟩ := Option.some.inj hline.symm
      simp [heq, hoffset]
    · obtain ⟨before, piece, after, column, hcut, hfound, hcolumn, hinside, hend⟩ :=
        lineAt?_eq hempty offset hwithin
      obtain rfl := Option.some.inj (hline.symm.trans hfound)
      have hsize : (String.ofList piece).utf8ByteSize = byteLength piece := by
        rw [← byteLength_toList, String.toList_ofList]
      simp only [byteLength_toList, hsize, String.toList_ofList] at hinside hend ⊢
      refine ⟨fun h => absurd h hempty, fun _ => ⟨before, after, ?_, rfl, ?_, hinside, hend⟩, ?_⟩
      · intro pieces
        rw [cut_iff, ← cut_iff.mp hcut]
      · rw [← byteLength_flatten, hcolumn]
      · intro hlt
        rw [toList_toUTF8, ← hcolumn, hcut.count_bytes_before (hinside hlt), Nat.add_comm]

/-- An offset inside the two bytes of a character on the second line. -/
theorem lineAt?_exact_inside :
    lineAt? "é\nßb" 4 = some ⟨2, "ßb", 1⟩ ∧
      2 = 1 + ("é\nßb".toUTF8.data.toList.take 4).count 10 := by
  have hline : lineAt? "é\nßb" 4 = some ⟨2, "ßb", 1⟩ := by decide
  exact ⟨hline, ((lineAt?_exact "é\nßb" 4).2 _ hline).2.2 (by decide)⟩

/-! ## The line of a character -/

section

variable {c : Char} {left right : List Char}

private theorem exists_append_of_byteLength_le {before after : List Char}
    (h : before ++ after = left ++ right) (hle : byteLength before ≤ byteLength left) :
    ∃ middle, left = before ++ middle ∧ after = middle ++ right := by
  obtain hlonger | ⟨middle, rfl, rfl⟩ := List.append_eq_append_iff.mp h
  · exact hlonger
  · cases middle with
    | nil => exact ⟨[], by simp⟩
    | cons first middle =>
        have hpos := first.utf8Size_pos
        simp at hle
        omega

def lastLine (text : List Char) : List Char := text.rtakeWhile (· ≠ '\n')

private theorem lastLine_of_notMem (h : '\n' ∉ right) : lastLine right = right := by
  rw [lastLine, List.rtakeWhile_eq_self_iff]
  intro c hc
  simpa using ne_of_mem_of_not_mem hc h

theorem reverse_newline_append (left : List Char) (h : '\n' ∉ right) :
    (left ++ '\n' :: right).reverse = right.reverse ++ '\n' :: left.reverse ∧
      ∀ c ∈ right.reverse, decide (c ≠ '\n') = true := by
  refine ⟨by simp, ?_⟩
  intro c hc
  simpa using ne_of_mem_of_not_mem (List.mem_reverse.mp hc) h

theorem lastLine_append (h : '\n' ∉ right) : lastLine (left ++ '\n' :: right) = right := by
  obtain ⟨hreverse, hright⟩ := reverse_newline_append left h
  rw [lastLine, List.rtakeWhile, hreverse, List.takeWhile_append_of_pos hright]
  simp

theorem Cut.lastLine_append {text piece : List Char} {before after : List (List Char)}
    (h : Cut text (before ++ piece :: after)) (hright : '\n' ∉ right) :
    lastLine (before.flatten ++ right) = right := by
  obtain rfl | ⟨others, last, rfl⟩ := List.eq_nil_or_concat before
  · exact lastLine_of_notMem hright
  · have hlast := h.ended last (by simp [List.dropLast_append_of_ne_nil])
    obtain ⟨line, rfl⟩ := List.getLast?_eq_some_iff.mp hlast
    have hsplit : (others.concat (line ++ ['\n'])).flatten ++ right =
        (others.flatten ++ line) ++ '\n' :: right := by simp
    rw [hsplit, Text.lastLine_append hright]

theorem lineAt?_of_append {source : String} (h : source.toList = left ++ c :: right) :
    ∃ number rest, '\n' ∉ rest.dropLast ∧
      lineAt? source (byteLength left) =
        some ⟨number, String.ofList (lastLine left ++ c :: rest), byteLength (lastLine left)⟩ := by
  have hpos := c.utf8Size_pos
  have htotal : byteLength source.toList = byteLength left + (c.utf8Size + byteLength right) := by
    simp [h]
  have hsource : source ≠ "" := by
    rintro rfl
    simp at h
  obtain ⟨before, piece, after, column, hcut, hline, hcolumn, hinside, -⟩ :=
    lineAt?_eq hsource (byteLength left) (by omega)
  have hjoined : before.flatten ++ (piece ++ after.flatten) = left ++ c :: right := by
    rw [← h, ← hcut.joined]
    simp
  obtain ⟨front, hleft, hpiece⟩ := exists_append_of_byteLength_le hjoined (by omega)
  have hfront : column = byteLength front := by
    rw [hleft, byteLength_append] at hcolumn
    omega
  obtain ⟨middle, rfl, hmiddle⟩ := exists_append_of_byteLength_le hpiece.symm (by omega)
  obtain _ | ⟨first, rest⟩ := middle
  · rw [List.append_nil] at hinside
    omega
  · obtain ⟨rfl, -⟩ := List.cons.inj hmiddle
    have hnewline := (hcut.inside (front ++ c :: rest) (by simp)).2
    rw [List.dropLast_append_of_ne_nil (by simp), List.mem_append, not_or] at hnewline
    have hlast : lastLine left = front := by
      rw [hleft]
      exact hcut.lastLine_append hnewline.1
    refine ⟨before.length + 1, rest, ?_, ?_⟩
    · cases rest with
      | nil => simp
      | cons next rest => exact fun hmem => hnewline.2 (List.mem_cons_of_mem _ hmem)
    · rw [hline, hlast, hfront]

end

end Assay.Text

/-!
# The pieces of a text

A character that stands between the parts of a text cuts it into pieces, one more than it
occurs.  Low lines cut the names of indexes, and ends of lines cut what is written line by line.
With the character back between them the pieces are the text again, so they say all there is to
know of it.  Whether they are the parts is another matter, for a part may have the character in
it.

* `Text.pieces_append`: the pieces of two texts with the character between them.
* `Text.length_pieces`, `Text.pieces_of_notMem`: how many pieces there are, and that a text
  without the character is its only piece.
* `Text.intercalate_pieces`, `Text.pieces_inj`: the pieces determine the text.
-/

namespace IndexPlanner
namespace Text

/-- The pieces of a text before, between and after the occurrences of a character. -/
def pieces (c : Char) (s : String) : List String := (s.toList.splitOn c).map String.ofList

variable {c : Char} {s t : String}

/-- A character between two texts ends the last piece of the first one. -/
theorem pieces_append (c : Char) (s t : String) :
    pieces c (s ++ String.singleton c ++ t) = pieces c s ++ pieces c t := by
  have htext : (s ++ String.singleton c ++ t).toList = s.toList ++ c :: t.toList := by simp
  rw [pieces, htext, List.splitOn_append_cons_self, List.map_append]
  rfl

theorem pieces_of_notMem (h : c ∉ s.toList) : pieces c s = [s] := by
  rw [pieces, List.splitOn_eq_singleton h, List.map_singleton, String.ofList_toList]

/-- There is one piece more than the character occurs. -/
theorem length_pieces (c : Char) (s : String) : (pieces c s).length = s.toList.count c + 1 := by
  rw [pieces, List.length_map]
  induction s.toList with
  | nil => rfl
  | cons x xs ih =>
    rw [List.splitOn_cons_eq_if_modifyHead, List.count_cons]
    split
    · rw [List.length_cons, ih]
    · rw [List.length_modifyHead, ih, Nat.add_zero]

theorem pieces_ne_nil (c : Char) (s : String) : pieces c s ≠ [] := by
  rw [← List.length_pos_iff, length_pieces]
  exact Nat.succ_pos _

/-- With the character back between them the pieces are the text. -/
theorem intercalate_pieces (c : Char) (s : String) :
    (String.singleton c).intercalate (pieces c s) = s := by
  have hchars : String.toList ∘ String.ofList = id := funext fun _ => String.toList_ofList
  rw [← String.toList_inj, String.toList_intercalate, String.toList_singleton, pieces,
    List.map_map, hchars, List.map_id, List.intercalate_splitOn]

/-- The pieces of a text determine it. -/
theorem pieces_inj : pieces c s = pieces c t ↔ s = t := by
  refine ⟨fun h => ?_, fun h => h ▸ rfl⟩
  rw [← intercalate_pieces c s, h, intercalate_pieces]

end Text
end IndexPlanner

import Mathlib.Data.String.Basic

/-!
# Texts cut at the ends of their lines

A text that is cut at the ends of its lines consists of the pieces with the ends between them.  For a
text whose last line ends too, the last piece is empty, and the other pieces are the lines.
-/

namespace PooledSessions

open String

/-- Cutting at a text of one character is cutting at the character. -/
theorem splitOnAux_singleton (c : Char) (s : String) (b i : Pos.Raw) (acc : List String) :
    splitOnAux s (singleton c) b i 0 acc = splitAux s (· == c) b i acc := by
  have hfirst : Pos.Raw.get (singleton c) 0 = c := get_of_valid [] [c]
  have hnext : Pos.Raw.next (singleton c) 0 = ⟨c.utf8Size⟩ := by
    have := next_of_valid [] c []
    rw [utf8Len_nil, Nat.zero_add] at this
    exact this
  have hlast : Pos.Raw.atEnd (singleton c) ⟨c.utf8Size⟩ = true := by
    have := (atEnd_of_valid [c] []).mpr rfl
    rw [utf8Len_cons, utf8Len_nil, Nat.zero_add] at this
    exact this
  fun_induction splitAux s (· == c) b i acc with
  | case1 b i acc h r =>
    rw [splitOnAux, if_pos h]
  | case2 b i acc h _ hfound j ih =>
    have hfound : i.get s = c := by simpa using hfound
    -- The cut is as long as the character, so the piece stops in front of it.
    have hback : (Pos.Raw.next s i).unoffsetBy ⟨c.utf8Size⟩ = i := by
      apply Pos.Raw.ext
      simp [Pos.Raw.next, hfound]
    rw [splitOnAux, if_neg h, if_pos (by rw [hfirst, hfound]; exact beq_self_eq_true c)]
    simp only [hnext, hlast, if_true, hback]
    exact ih
  | case3 b i acc h _ hfound ih =>
    have hstays : i.unoffsetBy 0 = i := by
      apply Pos.Raw.ext
      simp
    rw [splitOnAux, if_neg h, if_neg (by rw [hfirst]; exact hfound), hstays]
    exact ih

theorem splitOn_singleton (c : Char) (s : String) :
    s.splitOn (singleton c) = (s.toList.splitOn c).map ofList := by
  have hne : (singleton c == "") = false := by simp
  rw [List.splitOn_eq_splitOnP, ← splitToList_of_valid, splitOn, if_neg (by simp [hne])]
  exact splitOnAux_singleton c s 0 0 []

/-- Pieces with a line end behind each are the pieces with line ends between them, and one more. -/
theorem flatMap_ended {ps : List (List Char)} (hne : ps ≠ []) :
    ps.flatMap (· ++ ['\n']) = ['\n'].intercalate ps ++ ['\n'] := by
  induction ps with
  | nil => exact absurd rfl hne
  | cons p ps ih =>
    cases ps with
    | nil => simp
    | cons q ps =>
      rw [List.flatMap_cons, ih (by simp), List.intercalate_cons_cons]
      simp

/-- The lines of a text that ends with a line end, each with its own, make up the text. -/
theorem join_dropLast_splitOn (s : String) :
    String.join (((s ++ "\n").splitOn "\n").dropLast.map (· ++ "\n")) = s ++ "\n" := by
  have hpieces : (s ++ "\n").toList.splitOn '\n' = s.toList.splitOn '\n' ++ [[]] := by
    simpa using List.splitOn_append_cons_self (a := '\n') s.toList []
  have hlines := flatMap_ended (List.splitOn_ne_nil '\n' s.toList)
  rw [List.intercalate_splitOn] at hlines
  have hcut : (s ++ "\n").splitOn "\n" = ((s ++ "\n").toList.splitOn '\n').map ofList :=
    splitOn_singleton '\n' _
  rw [hcut, hpieces, ← String.toList_inj]
  simpa [List.flatMap_map] using hlines

end PooledSessions

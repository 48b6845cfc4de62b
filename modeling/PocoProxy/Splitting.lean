/-
What the string helpers compute.

`split_string` with a string cuts at the leftmost occurrence behind the one before
(`splitString_cuts`), and `replace_all` joins the same pieces with the replacement
(`replaceAll_join`). Both loops go on for ever when they look for the empty string, which
is found where the search starts and moves it nowhere (`helpers_end_iff`). The overload
with a character reads the pieces from a stream, and a stream has no last piece behind a
delimiter at its end (`overloads_agree_iff`).
-/
import PocoProxy.Strings
import Mathlib.Data.List.TakeWhile

set_option autoImplicit false

namespace PocoProxy.Strings

open PocoProxy.Loops PocoProxy.Cutting

variable {CharT : Type} [DecidableEq CharT]

/-! ## The search from a position -/

/-- What has been passed is not searched. -/
theorem find_append (before rest pattern : List CharT) :
    find (before ++ rest) pattern before.length
      = (search pattern rest).map (before.length + ·) := by
  have hle : before.length ≤ (before ++ rest).length := by
    rw [List.length_append]
    omega
  rw [find, if_pos hle, List.drop_left]

/-- The empty string is found where the search starts. -/
theorem find_empty {s : List CharT} {pos : ℕ} (h : pos ≤ s.length) :
    find s [] pos = some pos := by
  have hsearch : search [] (s.drop pos) = some 0 :=
    search_eq_some_iff.mpr ⟨leftmost_zero List.nil_prefix, Nat.zero_le _⟩
  rw [find, if_pos h, hsearch]
  rfl

/-! ## The two loops along the pieces -/

/-- The loop of `split_string`, when it has cut off what is before. -/
theorem ends_split {seperator rest : List CharT} {pieces : List (List CharT)}
    (h : Cuts seperator rest pieces) (before : List CharT) (out_split : List (List CharT)) :
    Ends (splitRound (before ++ rest) seperator) ⟨before.length, before.length, out_split⟩
      (out_split ++ pieces) := by
  induction h generalizing before out_split with
  | @last s hnone =>
      -- nothing is found, and `substr` up to `npos` is the rest
      apply ends_leave
      unfold splitRound
      dsimp only
      rw [find_append, search_eq_none_iff.mpr hnone]
      dsimp only [Option.map_none, SizeType.minus, substr]
      rw [List.drop_left]
  | @cut a rest pieces hleft h ih =>
      -- the round cuts off `a`, and what is before the next one ends with the separator
      have hstep : splitRound (before ++ (a ++ seperator ++ rest)) seperator
          ⟨before.length, before.length, out_split⟩
            = .again ⟨(before ++ a ++ seperator).length, (before ++ a ++ seperator).length,
              out_split ++ [a]⟩ := by
        unfold splitRound
        dsimp only
        rw [find_append, hleft.search_append]
        dsimp only [Option.map_some, SizeType.minus, substr]
        rw [List.drop_left, Nat.add_sub_cancel_left, List.append_assoc, List.take_left]
        simp only [List.length_append]
      rw [ends_again hstep]
      have hnext := ih (before ++ a ++ seperator) (out_split ++ [a])
      simpa only [List.append_assoc, List.singleton_append] using hnext

/-- The loop of `replace_all`, when it has passed what is before. -/
theorem ends_replace {pattern rest : List CharT} {pieces : List (List CharT)}
    (h : Cuts pattern rest pieces) (replace before : List CharT) :
    Ends (replaceRound pattern replace) ⟨before ++ rest, before.length⟩
      (before ++ replace.intercalate pieces) := by
  induction h generalizing before with
  | @last s hnone =>
      apply ends_leave
      unfold replaceRound
      dsimp only
      rw [find_append, search_eq_none_iff.mpr hnone, List.intercalate_singleton]
      rfl
  | @cut a rest pieces hleft h ih =>
      -- the replacement is behind the offset, and it is not searched again
      have hstep : replaceRound pattern replace ⟨before ++ (a ++ pattern ++ rest), before.length⟩
          = .again ⟨(before ++ a ++ replace) ++ rest, (before ++ a ++ replace).length⟩ := by
        unfold replaceRound
        dsimp only
        rw [find_append, hleft.search_append]
        dsimp only [Option.map_some, replaceRange]
        have hfirst : (before ++ (a ++ pattern ++ rest)).take (before.length + a.length)
            = before ++ a := by
          rw [← List.length_append, ← List.append_assoc, ← List.append_assoc, List.append_assoc,
            List.take_left]
        have hlast : (before ++ (a ++ pattern ++ rest)).drop
            (before.length + a.length + pattern.length) = rest := by
          rw [← List.length_append, ← List.length_append, ← List.append_assoc,
            ← List.append_assoc, List.drop_left]
        rw [hfirst, hlast]
        simp only [List.length_append]
      rw [ends_again hstep, List.intercalate_cons_of_ne_nil h.ne_nil]
      have hnext := ih (before ++ a ++ replace)
      simpa only [List.append_assoc] using hnext

theorem splitString_of_cuts {str seperator : List CharT} {pieces : List (List CharT)}
    (h : Cuts seperator str pieces) (out_split : List (List CharT)) :
    Returns (splitString str seperator out_split) (out_split ++ pieces) :=
  ends_split h [] out_split

theorem replaceAll_of_cuts {message pattern : List CharT} {pieces : List (List CharT)}
    (h : Cuts pattern message pieces) (replace : List CharT) :
    Returns (replaceAll message pattern replace) (replace.intercalate pieces) :=
  ends_replace h replace []

/-! ## What they compute -/

/-- **`split_string` loses nothing and cuts everywhere**: it appends at least one piece, the
pieces joined with the separator are the string, no piece contains the separator, and each
cut is at its leftmost occurrence behind the previous cut. -/
theorem splitString_cuts {seperator : List CharT} (hsep : seperator ≠ []) (str : List CharT)
    (out_split : List (List CharT)) :
    ∃ pieces, Returns (splitString str seperator out_split) (out_split ++ pieces) ∧
      pieces ≠ [] ∧ seperator.intercalate pieces = str ∧
      (∀ piece ∈ pieces, ¬ seperator <:+: piece) ∧ Cuts seperator str pieces := by
  obtain ⟨pieces, h⟩ := exists_cuts hsep str
  exact ⟨pieces, splitString_of_cuts h out_split, h.ne_nil, h.join, h.not_infix hsep, h⟩

/-- A separator that overlaps with itself. -/
theorem splitString_cuts_overlap :
    ∃ pieces, Returns (splitString [1, 1, 1] [1, 1] [[2]]) ([[2]] ++ pieces) ∧
      pieces ≠ [] ∧ List.intercalate [1, 1] pieces = [1, 1, 1] ∧
      (∀ piece ∈ pieces, ¬ [1, 1] <:+: piece) ∧ Cuts [1, 1] ([1, 1, 1] : List ℕ) pieces :=
  splitString_cuts (by decide) [1, 1, 1] [[2]]

/-- **`replace_all` is splitting and rejoining**, with the replacement between the pieces. -/
theorem replaceAll_join {pattern : List CharT} (hpattern : pattern ≠ [])
    (message replace : List CharT) :
    ∃ pieces, Returns (splitString message pattern []) pieces ∧
      Returns (replaceAll message pattern replace) (replace.intercalate pieces) := by
  obtain ⟨pieces, h⟩ := exists_cuts hpattern message
  exact ⟨pieces, splitString_of_cuts h [], replaceAll_of_cuts h replace⟩

/-- A replacement that contains the pattern. -/
theorem replaceAll_join_again :
    ∃ pieces, Returns (splitString ([1, 1, 2] : List ℕ) [1] []) pieces ∧
      Returns (replaceAll [1, 1, 2] [1] [1, 1]) (List.intercalate [1, 1] pieces) :=
  replaceAll_join (by decide) [1, 1, 2] [1, 1]

/-! ## When they end -/

/-- Looking for the empty string, `replace_all` never leaves its loop. -/
theorem replaceAll_empty (message replace r : List CharT) :
    ¬ Returns (replaceAll message [] replace) r := by
  refine not_ends (I := fun s : Replacing CharT => s.offset ≤ s.result.length) ?_
    (s := ⟨message, 0⟩) (Nat.zero_le _) r
  intro s hs
  refine ⟨⟨replaceRange s.result s.offset s.offset replace, s.offset + replace.length⟩, ?_, ?_⟩
  · rw [replaceRound, find_empty hs]
    rfl
  · -- the string gets as much longer as the offset moves
    change s.offset + replace.length ≤ (replaceRange s.result s.offset s.offset replace).length
    rw [replaceRange, List.length_append, List.length_append, List.length_take_of_le hs]
    omega

/-- Nor does `split_string`. -/
theorem splitString_empty (str : List CharT) (out_split r : List (List CharT)) :
    ¬ Returns (splitString str [] out_split) r := by
  refine not_ends (I := fun s : Splitting CharT => s.pos ≤ str.length) ?_
    (s := ⟨0, 0, out_split⟩) (Nat.zero_le _) r
  intro s hs
  refine ⟨⟨s.pos, s.pos, s.out_split ++ [substr str s.prev_pos (some (s.pos - s.prev_pos))]⟩,
    ?_, hs⟩
  rw [splitRound, find_empty hs]
  rfl

/-- **The string helpers terminate** exactly if they do not look for the empty string. -/
theorem helpers_end_iff (message pattern replace str seperator : List CharT)
    (out_split : List (List CharT)) :
    ((∃ r, Returns (replaceAll message pattern replace) r) ↔ pattern ≠ []) ∧
      ((∃ r, Returns (splitString str seperator out_split) r) ↔ seperator ≠ []) := by
  constructor
  · constructor
    · rintro ⟨r, hr⟩ rfl
      exact replaceAll_empty message replace r hr
    · intro hpattern
      obtain ⟨pieces, h⟩ := exists_cuts hpattern message
      exact ⟨_, replaceAll_of_cuts h replace⟩
  · constructor
    · rintro ⟨r, hr⟩ rfl
      exact splitString_empty str out_split r hr
    · intro hsep
      obtain ⟨pieces, h⟩ := exists_cuts hsep str
      exact ⟨_, splitString_of_cuts h out_split⟩

/-- One character, and nothing to look for in it. -/
theorem helpers_not_end :
    (¬ ∃ r, Returns (replaceAll ([97] : List ℕ) [] [98]) r) ∧
      ¬ ∃ r, Returns (splitString ([97] : List ℕ) [] []) r := by
  constructor
  · rintro ⟨r, hr⟩
    exact replaceAll_empty [97] [98] r hr
  · rintro ⟨r, hr⟩
    exact splitString_empty [97] [] r hr

/-! ## The overload with a character -/

/-- A token that is followed by the delimiter. -/
theorem getline_append {a rest : List CharT} {c : CharT} (h : c ∉ a) :
    getline ⟨a ++ c :: rest, false⟩ c = some (a, ⟨rest, false⟩) := by
  have hall : ∀ x ∈ a, (decide (x ≠ c)) = true := by
    intro x hx
    exact decide_eq_true fun heq => h (heq ▸ hx)
  have hnot : ¬ (decide (c ≠ c)) = true := by simp
  have hstop : (c :: rest).takeWhile (fun x => decide (x ≠ c)) = [] :=
    List.takeWhile_cons_of_neg hnot
  have hstay : (c :: rest).dropWhile (fun x => decide (x ≠ c)) = c :: rest :=
    List.dropWhile_cons_of_neg hnot
  have htake : (a ++ c :: rest).takeWhile (fun x => decide (x ≠ c)) = a := by
    rw [List.takeWhile_append_of_pos hall, hstop, List.append_nil]
  have hdrop : (a ++ c :: rest).dropWhile (fun x => decide (x ≠ c)) = c :: rest := by
    rw [List.dropWhile_append_of_pos hall, hstay]
  have hsome : (a ++ c :: rest).isEmpty = false := by
    cases a <;> rfl
  unfold getline
  dsimp only
  rw [hsome, htake, hdrop]
  rfl

/-- The last token. -/
theorem getline_last {s : List CharT} {c : CharT} (h : c ∉ s) (hs : s ≠ []) :
    getline ⟨s, false⟩ c = some (s, ⟨[], true⟩) := by
  have hall : ∀ x ∈ s, (decide (x ≠ c)) = true := by
    intro x hx
    exact decide_eq_true fun heq => h (heq ▸ hx)
  have hsome : s.isEmpty = false := List.isEmpty_eq_false_iff.mpr hs
  unfold getline
  dsimp only
  rw [hsome, List.takeWhile_eq_self_iff.mpr hall, List.dropWhile_eq_nil_iff.mpr hall]
  rfl

theorem tokens_end (delimiter : CharT) {iss : IStringStream CharT}
    (h : getline iss delimiter = none) (out_split : List (List CharT)) :
    Ends (tokenRound delimiter) ⟨iss, out_split⟩ out_split := by
  apply ends_leave
  rw [tokenRound, h]

/-- The pieces that a stream gives: it has no last one behind a delimiter at its end. -/
def fromStream (pieces : List (List CharT)) : List (List CharT) :=
  if pieces.getLast? = some [] then pieces.dropLast else pieces

theorem fromStream_cons (a : List CharT) {pieces : List (List CharT)} (h : pieces ≠ []) :
    fromStream (a :: pieces) = a :: fromStream pieces := by
  have hlast : (a :: pieces).getLast? = pieces.getLast? := List.getLast?_cons_of_ne_nil h
  rw [fromStream, fromStream, hlast, List.dropLast_cons_of_ne_nil h]
  split <;> rfl

theorem fromStream_eq_iff {pieces : List (List CharT)} :
    fromStream pieces = pieces ↔ pieces.getLast? ≠ some [] := by
  rw [fromStream]
  split
  next hlast =>
    -- a list with a last piece is not the list without it
    refine iff_of_false (fun heq => ?_) (not_not.mpr hlast)
    have hpos : 0 < pieces.length := List.length_pos_of_mem (List.mem_of_getLast? hlast)
    have hlength := congrArg List.length heq
    rw [List.length_dropLast] at hlength
    omega
  next hlast => exact iff_of_true rfl hlast

/-- The loop along the pieces. -/
theorem ends_tokens {c : CharT} {rest : List CharT} {pieces : List (List CharT)}
    (h : Cuts [c] rest pieces) (out_split : List (List CharT)) :
    Ends (tokenRound c) ⟨⟨rest, false⟩, out_split⟩ (out_split ++ fromStream pieces) := by
  induction h generalizing out_split with
  | @last s hnone =>
      rw [List.singleton_infix_iff] at hnone
      -- the stream gives a last token unless there is nothing left
      by_cases hs : s = []
      · rw [hs]
        have hempty : fromStream [([] : List CharT)] = [] := if_pos rfl
        rw [hempty, List.append_nil]
        exact tokens_end c rfl out_split
      · have hall : fromStream [s] = [s] := fromStream_eq_iff.mpr fun h => hs (Option.some.inj h)
        have hstep : tokenRound c ⟨⟨s, false⟩, out_split⟩
            = .again ⟨⟨[], true⟩, out_split ++ [s]⟩ := by
          rw [tokenRound, getline_last hnone hs]
        rw [hall, ends_again hstep]
        exact tokens_end c rfl _
  | @cut a rest pieces hleft h ih =>
      have hnot : c ∉ a := by
        rw [← List.singleton_infix_iff]
        exact hleft.not_infix (List.cons_ne_nil c [])
      have heq : a ++ [c] ++ rest = a ++ c :: rest := by
        rw [List.append_assoc, List.singleton_append]
      have hstep : tokenRound c ⟨⟨a ++ [c] ++ rest, false⟩, out_split⟩
          = .again ⟨⟨rest, false⟩, out_split ++ [a]⟩ := by
        rw [heq, tokenRound, getline_append hnot]
      rw [ends_again hstep, fromStream_cons a h.ne_nil]
      simpa only [List.append_assoc, List.singleton_append] using ih (out_split ++ [a])

omit [DecidableEq CharT] in
/-- The last piece is empty when there is nothing, or nothing behind the last delimiter. -/
theorem last_piece_empty_iff {c : CharT} {rest : List CharT} {pieces : List (List CharT)}
    (h : Cuts [c] rest pieces) :
    pieces.getLast? = some [] ↔ rest = [] ∨ rest.getLast? = some c := by
  induction h with
  | @last s hnone =>
      rw [List.singleton_infix_iff] at hnone
      constructor
      · intro h
        exact Or.inl (Option.some.inj h)
      · rintro (h | h)
        · exact congrArg some h
        · exact absurd (List.mem_of_getLast? h) hnone
  | @cut a rest pieces hleft h ih =>
      rw [List.getLast?_cons_of_ne_nil h.ne_nil, ih]
      cases rest with
      | nil => simp
      | cons x rest => simp [List.getLast?_append]

/-- **The overloads of `split_string` agree** exactly if the string is not empty and does not
end with the delimiter. -/
theorem overloads_agree_iff (str : List CharT) (c : CharT) (out_split : List (List CharT)) :
    (∃ pieces, Returns (splitStringChar str c out_split) (out_split ++ pieces) ∧
        Returns (splitString str [c] out_split) (out_split ++ pieces)) ↔
      str ≠ [] ∧ str.getLast? ≠ some c := by
  obtain ⟨pieces, h⟩ := exists_cuts (List.cons_ne_nil c []) str
  have htokens := ends_tokens h out_split
  have hcuts := splitString_of_cuts h out_split
  have hiff : fromStream pieces = pieces ↔ str ≠ [] ∧ str.getLast? ≠ some c := by
    rw [fromStream_eq_iff, ne_eq, last_piece_empty_iff h, not_or]
  rw [← hiff]
  constructor
  · rintro ⟨pieces', hchar, hstring⟩
    have hleft := List.append_cancel_left (Ends.unique htokens hchar)
    have hright := List.append_cancel_left (Ends.unique hcuts hstring)
    rw [hleft, hright]
  · intro hall
    rw [hall] at htokens
    exact ⟨pieces, htokens, hcuts⟩

/-- A delimiter at the end: one piece from the stream, and two from the search. -/
theorem overloads_differ :
    ¬ ∃ pieces, Returns (splitStringChar ([97, 44] : List ℕ) 44 []) ([] ++ pieces) ∧
      Returns (splitString ([97, 44] : List ℕ) [44] []) ([] ++ pieces) := by
  rintro ⟨pieces, hchar, hstring⟩
  have hone : Returns (splitStringChar ([97, 44] : List ℕ) 44 []) [[97]] := ⟨3, by decide⟩
  have htwo : Returns (splitString ([97, 44] : List ℕ) [44] []) [[97], []] := ⟨3, by decide⟩
  have hleft : [[97]] = [] ++ pieces := Ends.unique hone hchar
  have hright : [[97], []] = [] ++ pieces := Ends.unique htwo hstring
  exact absurd (hleft.trans hright.symm) (by decide)

end PocoProxy.Strings

/-
Zeros at the end of the decimals.

`DecimalPlaceZeroDel` looks for the last character that is not a zero, from the end of the
text back to the point, and deletes what is behind it, and the point with it when that is
what it finds. On any text with a point it keeps what is before the point, and what is
behind it without the zeros at the end (`decimalPlaceZeroDel_append`). On the numerals this
is the shortest text of the same number with the same digits before the point.
-/
import PocoProxy.CString
import PocoProxy.Lib.Fraction

set_option autoImplicit false

namespace PocoProxy.Decimals

open PocoProxy.CStrings PocoProxy.Fractions

/-! ## The function -/

/-- The loop, with `ii` from one below the second argument down to `pos_dot`: `no_zero` after
it. -/
def lastNonZero (text : CString) (pos_dot : ℤ) : ℕ → ℤ
  | 0 => -1
  | ii + 1 =>
    if pos_dot ≤ ii then
      if text[ii]? ≠ some (tchar '0') then ii else lastNonZero text pos_dot ii
    else -1

def decimalPlaceZeroDel (number : CString) : CString :=
  let text := number
  let pos_dot := find text (tchar '.')
  if pos_dot > -1 then
    let text_len := text.length
    let no_zero := lastNonZero text pos_dot text_len
    if pos_dot = no_zero then delete text no_zero (text_len - no_zero)
    else if no_zero > -1 then delete text (no_zero + 1) (text_len - (no_zero + 1))
    else text
  else text

/-! ## On any text -/

/-- **The scan** stops at the last character that is not a zero. -/
theorem lastNonZero_eq {text : CString} {pos_dot : ℤ} {i n : ℕ} (hdot : pos_dot ≤ i) (hin : i < n)
    (hi : text[i]? ≠ some (tchar '0'))
    (hzero : ∀ j, i < j → j < n → text[j]? = some (tchar '0')) :
    lastNonZero text pos_dot n = i := by
  induction n with
  | zero => exact absurd hin (Nat.not_lt_zero i)
  | succ n ih =>
      have hle : pos_dot ≤ n := by omega
      rw [lastNonZero, if_pos hle]
      rcases Nat.lt_succ_iff_lt_or_eq.mp hin with hlt | rfl
      · rw [if_neg (not_not.mpr (hzero n hlt (Nat.lt_succ_self n)))]
        exact ih hlt fun j hij hjn => hzero j hij (Nat.lt_succ_of_lt hjn)
      · rw [if_pos hi]

/-- The scan of a text with so many zeros at its end. -/
theorem lastNonZero_append {before : CString} {c : TChar} (hc : c ≠ tchar '0') (k : ℕ)
    {pos_dot : ℤ} (hdot : pos_dot ≤ before.length) :
    lastNonZero (before ++ c :: List.replicate k (tchar '0')) pos_dot
      (before ++ c :: List.replicate k (tchar '0')).length = before.length := by
  apply lastNonZero_eq hdot
  · simp
  · rw [List.getElem?_append_right (le_refl _), Nat.sub_self, List.getElem?_cons_zero]
    exact fun h => hc (Option.some.inj h)
  · intro j hj hn
    rw [List.length_append, List.length_cons, List.length_replicate] at hn
    obtain ⟨i, rfl⟩ : ∃ i, j = before.length + (i + 1) := ⟨j - before.length - 1, by omega⟩
    rw [List.getElem?_append_right (Nat.le_add_right _ _), Nat.add_sub_cancel_left,
      List.getElem?_cons_succ, List.getElem?_replicate_of_lt (by omega)]

/-- A text without a point is left as it is. -/
theorem decimalPlaceZeroDel_of_no_dot {text : CString} (h : tchar '.' ∉ text) :
    decimalPlaceZeroDel text = text := by
  rw [decimalPlaceZeroDel, find_eq_neg_one h]
  exact if_neg (by decide)

/-- Zeros directly behind the point are deleted with it. -/
theorem decimalPlaceZeroDel_zeros {before : CString} (h : tchar '.' ∉ before) (k : ℕ) :
    decimalPlaceZeroDel (before ++ tchar '.' :: List.replicate k (tchar '0')) = before := by
  have hscan : lastNonZero (before ++ tchar '.' :: List.replicate k (tchar '0')) before.length
      (before ++ tchar '.' :: List.replicate k (tchar '0')).length = before.length :=
    lastNonZero_append (by decide) k (le_refl _)
  rw [decimalPlaceZeroDel, find_append h]
  dsimp only
  rw [if_pos (by omega), hscan, if_pos rfl]
  exact delete_rest before _

/-- The zeros behind another character are deleted, and it is kept. -/
theorem decimalPlaceZeroDel_concat {before : CString} (h : tchar '.' ∉ before) (kept : CString)
    {c : TChar} (hc : c ≠ tchar '0') (k : ℕ) :
    decimalPlaceZeroDel (before ++ tchar '.' :: (kept ++ c :: List.replicate k (tchar '0')))
      = before ++ tchar '.' :: (kept ++ [c]) := by
  -- what is before the character, and what is up to it
  have hsplit : before ++ tchar '.' :: (kept ++ c :: List.replicate k (tchar '0'))
      = (before ++ tchar '.' :: kept) ++ c :: List.replicate k (tchar '0') := by simp
  have hkept : before ++ tchar '.' :: (kept ++ c :: List.replicate k (tchar '0'))
      = (before ++ tchar '.' :: (kept ++ [c])) ++ List.replicate k (tchar '0') := by simp
  have hlength : ((before ++ tchar '.' :: kept).length : ℤ) + 1
      = (before ++ tchar '.' :: (kept ++ [c])).length := by
    simp only [List.length_append, List.length_cons, List.length_nil]
    omega
  have hbehind : (before.length : ℤ) < (before ++ tchar '.' :: kept).length := by
    simp only [List.length_append, List.length_cons]
    omega
  have hscan := @lastNonZero_append (before ++ tchar '.' :: kept) c hc k _ hbehind.le
  rw [decimalPlaceZeroDel, find_append h]
  dsimp only
  rw [if_pos (by omega), hsplit, hscan, if_neg hbehind.ne, if_pos (by omega), hlength, ← hsplit,
    hkept]
  exact delete_rest _ _

/-! ## Numerals -/

inductive Sign where
  | plus
  | minus

/-- A decimal numeral: a sign or none, at least one digit, and perhaps a point with any
number of digits behind it. -/
@[ext] structure Numeral where
  sign : Option Sign
  whole : List (Fin 10)
  whole_ne_nil : whole ≠ []
  decimals : Option (List (Fin 10))

def digit (d : Fin 10) : TChar := UInt16.ofNat ('0'.toNat + d.val)

theorem digit_injective : Function.Injective digit := by
  unfold Function.Injective
  decide

theorem digit_eq_zero_iff : ∀ d, digit d = tchar '0' ↔ d.val = 0 := by decide

theorem digit_ne_dot : ∀ d, digit d ≠ tchar '.' := by decide

def signText : Option Sign → CString
  | none => []
  | some .plus => [tchar '+']
  | some .minus => [tchar '-']

def decimalsText : Option (List (Fin 10)) → CString
  | none => []
  | some ds => tchar '.' :: ds.map digit

/-- What is before the point. -/
def Numeral.front (n : Numeral) : CString := signText n.sign ++ n.whole.map digit

def Numeral.text (n : Numeral) : CString := n.front ++ decimalsText n.decimals

/-- The digits behind the point. -/
def Numeral.behind (n : Numeral) : List (Fin 10) := n.decimals.getD []

def signFactor : Option Sign → ℚ
  | some .minus => -1
  | _ => 1

/-- The number that is meant. -/
def Numeral.value (n : Numeral) : ℚ :=
  signFactor n.sign * ((n.whole.foldl (fun a d => 10 * a + d.val) 0 : ℕ) + fraction n.behind)

theorem dot_not_mem_map (ds : List (Fin 10)) : tchar '.' ∉ ds.map digit := by
  intro h
  obtain ⟨d, -, hd⟩ := List.mem_map.mp h
  exact digit_ne_dot d hd

theorem dot_not_mem_front (n : Numeral) : tchar '.' ∉ n.front := by
  intro h
  rcases List.mem_append.mp h with h | h
  · revert h
    rcases n.sign with _ | _ | _ <;> decide
  · exact dot_not_mem_map n.whole h

/-! ### A text is of one numeral -/

theorem digit_ne_sign : ∀ d, digit d ≠ tchar '+' ∧ digit d ≠ tchar '-' := by decide

/-- The sign that a text starts with. -/
def leadingSign : CString → Option Sign
  | [] => none
  | c :: _ => if c = tchar '+' then some .plus else if c = tchar '-' then some .minus else none

/-- A digit is not a sign. -/
theorem leadingSign_append (s : Option Sign) (d : Fin 10) (ds : List (Fin 10)) :
    leadingSign (signText s ++ (d :: ds).map digit) = s := by
  cases s with
  | none =>
      obtain ⟨hplus, hminus⟩ := digit_ne_sign d
      exact (if_neg hplus).trans (if_neg hminus)
  | some s => cases s <;> rfl

theorem front_inj {m n : Numeral} (h : m.front = n.front) :
    m.sign = n.sign ∧ m.whole = n.whole := by
  obtain ⟨d, ds, hm⟩ := List.exists_cons_of_ne_nil m.whole_ne_nil
  obtain ⟨e, es, hn⟩ := List.exists_cons_of_ne_nil n.whole_ne_nil
  rw [Numeral.front, Numeral.front, hm, hn] at h
  have hsign := congrArg leadingSign h
  rw [leadingSign_append, leadingSign_append] at hsign
  rw [hsign] at h
  rw [hm, hn]
  exact ⟨hsign, List.map_injective_iff.mpr digit_injective (List.append_cancel_left h)⟩

/-- What is before the point is what is before the first point. -/
theorem takeWhile_text (n : Numeral) : n.text.takeWhile (· ≠ tchar '.') = n.front := by
  have hall : ∀ c ∈ n.front, decide (c ≠ tchar '.') = true := by
    intro c hc
    rw [decide_eq_true_eq]
    rintro rfl
    exact dot_not_mem_front n hc
  rw [Numeral.text, List.takeWhile_append_of_pos hall]
  cases n.decimals with
  | none => exact List.append_nil _
  | some ds =>
      rw [decimalsText, List.takeWhile_cons_of_neg (by decide)]
      exact List.append_nil _

theorem decimalsText_injective : Function.Injective decimalsText := by
  intro ds es h
  cases ds with
  | none =>
      cases es with
      | none => rfl
      | some es => exact absurd h.symm (List.cons_ne_nil _ _)
  | some ds =>
      cases es with
      | none => exact absurd h (List.cons_ne_nil _ _)
      | some es =>
          have htail := (List.cons.inj h).2
          exact congrArg some (List.map_injective_iff.mpr digit_injective htail)

theorem text_injective : Function.Injective Numeral.text := by
  intro m n h
  have hfront : m.front = n.front := by rw [← takeWhile_text m, h, takeWhile_text]
  rw [Numeral.text, Numeral.text, hfront] at h
  obtain ⟨hsign, hwhole⟩ := front_inj hfront
  exact Numeral.ext hsign hwhole (decimalsText_injective (List.append_cancel_left h))

/-! ### The shortest numeral -/

/-- The numeral without the zeros at its end. -/
def Numeral.shortest (n : Numeral) : Numeral :=
  { n with decimals := if trim n.behind = [] then none else some (trim n.behind) }

theorem behind_shortest (n : Numeral) : n.shortest.behind = trim n.behind := by
  rw [Numeral.behind, Numeral.shortest]
  split
  next h => exact h.symm
  next => rfl

/-- Only the digits behind the point are others, and they have the same value. -/
theorem value_shortest (n : Numeral) : n.shortest.value = n.value := by
  rw [Numeral.value, Numeral.value, behind_shortest, fraction_trim]
  rfl

theorem shortest_shortest (n : Numeral) : n.shortest.shortest = n.shortest := by
  rw [Numeral.shortest, behind_shortest, trim_eq_self (trim_noZeroAtEnd _)]
  rfl

/-- With the same digits before the point, what is left is the same for the same value. -/
theorem shortest_congr {m n : Numeral} (hsign : m.sign = n.sign) (hwhole : m.whole = n.whole)
    (hvalue : m.value = n.value) : m.shortest = n.shortest := by
  have hfactor : signFactor n.sign ≠ 0 := by
    rcases n.sign with _ | _ | _ <;> norm_num [signFactor]
  rw [Numeral.value, Numeral.value, hsign, hwhole] at hvalue
  have hfraction := add_left_cancel (mul_left_cancel₀ hfactor hvalue)
  have htrim : trim m.behind = trim n.behind := trim_eq_iff.mpr hfraction
  ext1
  · exact hsign
  · exact hwhole
  · rw [Numeral.shortest, Numeral.shortest, htrim]

/-- **The function computes the shortest numeral.** -/
theorem decimalPlaceZeroDel_text (n : Numeral) :
    decimalPlaceZeroDel n.text = n.shortest.text := by
  cases hdecimals : n.decimals with
  | none =>
      have hbehind : n.behind = [] := by rw [Numeral.behind, hdecimals, Option.getD_none]
      have hshortest : n.shortest = n := by
        ext1
        · rfl
        · rfl
        · rw [Numeral.shortest, hbehind]
          exact hdecimals.symm
      have htext : n.text = n.front := by
        rw [Numeral.text, hdecimals]
        exact List.append_nil _
      rw [hshortest, htext]
      exact decimalPlaceZeroDel_of_no_dot (dot_not_mem_front n)
  | some ds =>
      have hbehind : n.behind = ds := by rw [Numeral.behind, hdecimals, Option.getD_some]
      obtain ⟨zeros, hds, hzeros⟩ := exists_trim_append ds
      -- the zeros that come off are characters `0`
      have hmap : zeros.map digit = List.replicate zeros.length (tchar '0') := by
        rw [List.eq_replicate_iff, List.length_map]
        refine ⟨rfl, fun c hc => ?_⟩
        obtain ⟨d, hd, rfl⟩ := List.mem_map.mp hc
        exact (digit_eq_zero_iff d).mpr (hzeros d hd)
      have htext : n.text
          = n.front ++ tchar '.' :: ((trim ds).map digit
            ++ List.replicate zeros.length (tchar '0')) := by
        rw [Numeral.text, hdecimals, decimalsText, ← hmap, ← List.map_append, ← hds]
      have hshortest : n.shortest.text
          = n.front ++ decimalsText (if trim ds = [] then none else some (trim ds)) := by
        rw [← hbehind]
        rfl
      rw [htext, hshortest]
      rcases (trim ds).eq_nil_or_concat' with hnil | ⟨init, d, hinit⟩
      · rw [hnil, if_pos rfl]
        exact (decimalPlaceZeroDel_zeros (dot_not_mem_front n) _).trans (List.append_nil _).symm
      · have hd : d.val ≠ 0 := trim_noZeroAtEnd ds init d hinit
        have hdigit : digit d ≠ tchar '0' := mt (digit_eq_zero_iff d).mp hd
        have hne : init ++ [d] ≠ [] := List.append_ne_nil_of_right_ne_nil _ (List.cons_ne_nil _ _)
        rw [hinit, if_neg hne, decimalsText, List.map_append, List.append_assoc]
        exact decimalPlaceZeroDel_concat (dot_not_mem_front n) _ hdigit _

/-- A point that is left has a digit that is not zero at the end behind it. -/
theorem exists_last_digit {n : Numeral} (h : tchar '.' ∈ n.shortest.text) :
    ∃ ds d, n.shortest.decimals = some (ds ++ [d]) ∧ d.val ≠ 0 := by
  have hdecimals : tchar '.' ∈ decimalsText n.shortest.decimals :=
    (List.mem_append.mp h).resolve_left (dot_not_mem_front n.shortest)
  rcases (trim n.behind).eq_nil_or_concat' with hnil | ⟨ds, d, hds⟩
  · rw [Numeral.shortest, hnil, if_pos rfl] at hdecimals
    exact absurd hdecimals List.not_mem_nil
  · refine ⟨ds, d, ?_, trim_noZeroAtEnd n.behind ds d hds⟩
    have hne : ds ++ [d] ≠ [] := List.append_ne_nil_of_right_ne_nil _ (List.cons_ne_nil _ _)
    rw [Numeral.shortest, hds, if_neg hne]

/-- **`DecimalPlaceZeroDel` is a canonical form.** -/
theorem decimalPlaceZeroDel_canonical :
    (∀ n : Numeral, ∃ m : Numeral,
        (∀ m' : Numeral, m'.text = decimalPlaceZeroDel n.text ↔ m' = m)
          ∧ m.value = n.value ∧ m.sign = n.sign ∧ m.whole = n.whole
          ∧ (tchar '.' ∈ decimalPlaceZeroDel n.text →
            ∃ ds d, m.decimals = some (ds ++ [d]) ∧ d.val ≠ 0)
          ∧ decimalPlaceZeroDel (decimalPlaceZeroDel n.text) = decimalPlaceZeroDel n.text)
      ∧ (∀ m n : Numeral, m.sign = n.sign → m.whole = n.whole → m.value = n.value →
        decimalPlaceZeroDel m.text = decimalPlaceZeroDel n.text)
      ∧ ∀ text : CString, tchar '.' ∉ text → decimalPlaceZeroDel text = text := by
  refine ⟨fun n => ⟨n.shortest, ?_, value_shortest n, rfl, rfl, ?_, ?_⟩, ?_, ?_⟩
  · intro m'
    rw [decimalPlaceZeroDel_text]
    exact text_injective.eq_iff
  · intro h
    rw [decimalPlaceZeroDel_text] at h
    exact exists_last_digit h
  · rw [decimalPlaceZeroDel_text, decimalPlaceZeroDel_text, shortest_shortest]
  · intro m n hsign hwhole hvalue
    rw [decimalPlaceZeroDel_text, decimalPlaceZeroDel_text, shortest_congr hsign hwhole hvalue]
  · intro text h
    exact decimalPlaceZeroDel_of_no_dot h

example : decimalPlaceZeroDel (tchars ['-', '3', '.', '1', '0', '3', '0', '0'])
    = tchars ['-', '3', '.', '1', '0', '3'] := by decide

/-- With the same value, `+7.` and `+7.00` give the same text. -/
theorem decimalPlaceZeroDel_canonical_seven :
    decimalPlaceZeroDel (Numeral.mk (some .plus) [7] (List.cons_ne_nil _ _) (some [])).text
      = decimalPlaceZeroDel
        (Numeral.mk (some .plus) [7] (List.cons_ne_nil _ _) (some [0, 0])).text :=
  decimalPlaceZeroDel_canonical.2.1 _ _ rfl rfl
    (by norm_num [Numeral.value, Numeral.behind, fraction, signFactor])

end PocoProxy.Decimals

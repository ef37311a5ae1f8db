import Mathlib

/-!
# Truncating UTF-8

Encoding a string, cutting the bytes and decoding them again with `errors="ignore"`. The decoder
drops a malformed sequence up to the byte that breaks it, and a sequence cut off by the end of
the input.

* `utf8Encode`, `byteLen`, `decodeIgnore`;
* `byteLen_append`, `byteLen_ofList`;
* **`width_decodeIgnore_le`**: decoding never yields a string of more bytes than it read;
* `fitting`, **`decodeIgnore_take`**: a cut encoding decodes to the longest part that fits.
-/

namespace MMRelay

/-- `s.encode("utf-8")`. -/
def utf8Encode (s : String) : List UInt8 := s.toList.flatMap String.utf8EncodeChar

/-- The number of bytes of the encoding. -/
def byteLen (s : String) : ℕ := (utf8Encode s).length

/-- A continuation byte. -/
def isCont (b : UInt8) : Bool := decide (0x80 ≤ b.toNat ∧ b.toNat < 0xc0)

/-- The payload of a continuation byte. -/
def contBits (b : UInt8) : ℕ := b.toNat % 0x40

/-- The second byte fits the first byte `n` of a sequence of three. -/
def fitsThree (n : ℕ) (b : UInt8) : Bool :=
  isCont b && !(n == 0xe0 && decide (b.toNat < 0xa0)) && !(n == 0xed && decide (0xa0 ≤ b.toNat))

/-- The second byte fits the first byte `n` of a sequence of four. -/
def fitsFour (n : ℕ) (b : UInt8) : Bool :=
  isCont b && !(n == 0xf0 && decide (b.toNat < 0x90)) && !(n == 0xf4 && decide (0x90 ≤ b.toNat))

/-- `bytes.decode("utf-8", "ignore")`. -/
def decodeIgnore : List UInt8 → List Char
  | [] => []
  | b :: bs =>
    let n := b.toNat
    if n < 0x80 then Char.ofNat n :: decodeIgnore bs
    else if n < 0xc2 then decodeIgnore bs
    else if n < 0xe0 then
      match bs with
      | [] => []
      | c :: cs =>
        if isCont c then Char.ofNat (n % 0x20 * 0x40 + contBits c) :: decodeIgnore cs
        else decodeIgnore (c :: cs)
    else if n < 0xf0 then
      match bs with
      | [] => []
      | c :: cs =>
        if !fitsThree n c then decodeIgnore (c :: cs)
        else
          match cs with
          | [] => []
          | d :: ds =>
            if isCont d then
              Char.ofNat (n % 0x10 * 0x1000 + contBits c * 0x40 + contBits d) :: decodeIgnore ds
            else decodeIgnore (d :: ds)
    else if n < 0xf5 then
      match bs with
      | [] => []
      | c :: cs =>
        if !fitsFour n c then decodeIgnore (c :: cs)
        else
          match cs with
          | [] => []
          | d :: ds =>
            if !isCont d then decodeIgnore (d :: ds)
            else
              match ds with
              | [] => []
              | e :: es =>
                if isCont e then
                  Char.ofNat (n % 0x8 * 0x40000 + contBits c * 0x1000 + contBits d * 0x40
                    + contBits e) :: decodeIgnore es
                else decodeIgnore (e :: es)
    else decodeIgnore bs

/-! ## Lengths -/

/-- The bytes that the characters take. -/
def width (cs : List Char) : ℕ := (cs.map Char.utf8Size).sum

@[simp] theorem width_nil : width [] = 0 := rfl

@[simp] theorem width_cons (c : Char) (cs : List Char) : width (c :: cs) = c.utf8Size + width cs := by
  simp [width]

theorem byteLen_eq_width (s : String) : byteLen s = width s.toList := by
  simp [byteLen, utf8Encode, width, List.length_flatMap]

theorem byteLen_ofList (cs : List Char) : byteLen (String.ofList cs) = width cs := by
  rw [byteLen_eq_width, String.toList_ofList]

theorem byteLen_append (s t : String) : byteLen (s ++ t) = byteLen s + byteLen t := by
  simp [byteLen_eq_width, width, String.toList_append]

theorem ofNat_val_le (n : ℕ) : (Char.ofNat n).val.toNat ≤ n := by
  unfold Char.ofNat
  split
  · exact Nat.le_refl _
  · exact Nat.zero_le _

theorem utf8Size_le_one {n : ℕ} (h : n < 0x80) : (Char.ofNat n).utf8Size ≤ 1 := by
  have hv := ofNat_val_le n
  have : (Char.ofNat n).utf8Size = 1 := Char.utf8Size_eq_one_iff.mpr (by
    rw [UInt32.le_iff_toNat_le]
    change _ ≤ 127
    omega)
  omega

theorem utf8Size_le_two {n : ℕ} (h : n < 0x800) : (Char.ofNat n).utf8Size ≤ 2 := by
  have hv := ofNat_val_le n
  rcases Char.utf8Size_eq (Char.ofNat n) with h1 | h1 | h1 | h1
  · omega
  · omega
  · have := (Char.utf8Size_eq_three_iff.mp h1).1
    rw [UInt32.lt_iff_toNat_lt] at this
    change 0x7ff < _ at this
    omega
  · have := Char.utf8Size_eq_four_iff.mp h1
    rw [UInt32.lt_iff_toNat_lt] at this
    change 0xffff < _ at this
    omega

theorem utf8Size_le_three {n : ℕ} (h : n < 0x10000) : (Char.ofNat n).utf8Size ≤ 3 := by
  have hv := ofNat_val_le n
  rcases Char.utf8Size_eq (Char.ofNat n) with h1 | h1 | h1 | h1
  · omega
  · omega
  · omega
  · have := Char.utf8Size_eq_four_iff.mp h1
    rw [UInt32.lt_iff_toNat_lt] at this
    change 0xffff < _ at this
    omega

/-- **Decoding does not grow.** The characters decoded take at most as many bytes as were read. -/
theorem width_decodeIgnore_le (bs : List UInt8) : width (decodeIgnore bs) ≤ bs.length := by
  fun_induction decodeIgnore bs with
  | case1 => simp
  | case2 b bs n h ih =>
    have := utf8Size_le_one h
    simp only [width_cons, List.length_cons]
    omega
  | case3 b bs n _ _ ih =>
    simp only [List.length_cons]
    omega
  | case4 => simp
  | case5 b n _ _ _ c cs _ ih =>
    have := utf8Size_le_two (n := n % 0x20 * 0x40 + contBits c) (by unfold contBits; omega)
    simp only [width_cons, List.length_cons]
    omega
  | case6 b n _ _ _ c cs _ ih =>
    simp only [List.length_cons] at ih ⊢
    omega
  | case7 => simp
  | case8 b n _ _ _ _ c cs _ ih =>
    simp only [List.length_cons] at ih ⊢
    omega
  | case9 => simp
  | case10 b n _ _ _ _ c _ d ds _ ih =>
    have := utf8Size_le_three (n := n % 0x10 * 0x1000 + contBits c * 0x40 + contBits d)
      (by unfold contBits; omega)
    simp only [width_cons, List.length_cons]
    omega
  | case11 b n _ _ _ _ c _ d ds _ ih =>
    simp only [List.length_cons] at ih ⊢
    omega
  | case12 => simp
  | case13 b n _ _ _ _ _ c cs _ ih =>
    simp only [List.length_cons] at ih ⊢
    omega
  | case14 => simp
  | case15 b n _ _ _ _ _ c _ d ds _ ih =>
    simp only [List.length_cons] at ih ⊢
    omega
  | case16 => simp
  | case17 b n _ _ _ _ _ c _ d _ e es _ ih =>
    have := Char.utf8Size_le_four
      (Char.ofNat (n % 0x8 * 0x40000 + contBits c * 0x1000 + contBits d * 0x40 + contBits e))
    simp only [width_cons, List.length_cons]
    omega
  | case18 b n _ _ _ _ _ c _ d _ e es _ ih =>
    simp only [List.length_cons] at ih ⊢
    omega
  | case19 b bs n _ _ _ _ _ ih =>
    simp only [List.length_cons]
    omega

/-! ## Decoding what was encoded -/

section Sequences

variable {b c d e : UInt8} {bs : List UInt8}

theorem decodeIgnore_one (hb : b.toNat < 0x80) :
    decodeIgnore (b :: bs) = Char.ofNat b.toNat :: decodeIgnore bs := by
  conv_lhs => rw [decodeIgnore.eq_def]
  exact if_pos hb

theorem decodeIgnore_two (hb : 0xc2 ≤ b.toNat) (hb' : b.toNat < 0xe0) (hc : isCont c = true) :
    decodeIgnore (b :: c :: bs) =
      Char.ofNat (b.toNat % 0x20 * 0x40 + contBits c) :: decodeIgnore bs := by
  conv_lhs => rw [decodeIgnore.eq_def]
  simp only
  rw [if_neg (by omega), if_neg (by omega), if_pos hb']
  simp only [hc, if_true]

theorem decodeIgnore_three (hb : 0xe0 ≤ b.toNat) (hb' : b.toNat < 0xf0)
    (hc : fitsThree b.toNat c = true) (hd : isCont d = true) :
    decodeIgnore (b :: c :: d :: bs) =
      Char.ofNat (b.toNat % 0x10 * 0x1000 + contBits c * 0x40 + contBits d) :: decodeIgnore bs := by
  conv_lhs => rw [decodeIgnore.eq_def]
  simp only
  rw [if_neg (by omega), if_neg (by omega), if_neg (by omega), if_pos hb']
  simp only [hc, hd, Bool.not_true, Bool.false_eq_true, if_false, if_true]

theorem decodeIgnore_four (hb : 0xf0 ≤ b.toNat) (hb' : b.toNat < 0xf5)
    (hc : fitsFour b.toNat c = true) (hd : isCont d = true) (he : isCont e = true) :
    decodeIgnore (b :: c :: d :: e :: bs) =
      Char.ofNat (b.toNat % 0x8 * 0x40000 + contBits c * 0x1000 + contBits d * 0x40
        + contBits e) :: decodeIgnore bs := by
  conv_lhs => rw [decodeIgnore.eq_def]
  simp only
  rw [if_neg (by omega), if_neg (by omega), if_neg (by omega), if_neg (by omega),
    if_pos hb']
  simp only [hc, hd, he, Bool.not_true, Bool.false_eq_true, if_false, if_true]

theorem decodeIgnore_cut_one (hb : 0xc2 ≤ b.toNat) (hb' : b.toNat < 0xf5) :
    decodeIgnore [b] = [] := by
  conv_lhs => rw [decodeIgnore.eq_def]
  simp only
  rw [if_neg (by omega), if_neg (by omega)]
  split_ifs <;> rfl

theorem decodeIgnore_cut_two (hb : 0xe0 ≤ b.toNat) (hb' : b.toNat < 0xf5)
    (hthree : b.toNat < 0xf0 → fitsThree b.toNat c = true)
    (hfour : 0xf0 ≤ b.toNat → fitsFour b.toNat c = true) : decodeIgnore [b, c] = [] := by
  conv_lhs => rw [decodeIgnore.eq_def]
  simp only
  rw [if_neg (by omega), if_neg (by omega), if_neg (by omega)]
  by_cases h : b.toNat < 0xf0
  · rw [if_pos h]
    simp only [hthree h, Bool.not_true, Bool.false_eq_true, if_false]
  · rw [if_neg h, if_pos hb']
    simp only [hfour (by omega), Bool.not_true, Bool.false_eq_true, if_false]

theorem decodeIgnore_cut_three (hb : 0xf0 ≤ b.toNat) (hb' : b.toNat < 0xf5)
    (hc : fitsFour b.toNat c = true) (hd : isCont d = true) : decodeIgnore [b, c, d] = [] := by
  conv_lhs => rw [decodeIgnore.eq_def]
  simp only
  rw [if_neg (by omega), if_neg (by omega), if_neg (by omega), if_neg (by omega),
    if_pos hb']
  simp only [hc, hd, Bool.not_true, Bool.false_eq_true, if_false]

end Sequences

theorem isCont_ofNat {n : ℕ} : isCont (UInt8.ofNat (n % 0x40 + 0x80)) = true := by
  unfold isCont
  rw [UInt8.toNat_ofNat', decide_eq_true_eq]
  omega

theorem contBits_ofNat {n : ℕ} : contBits (UInt8.ofNat (n % 0x40 + 0x80)) = n % 0x40 := by
  unfold contBits
  rw [UInt8.toNat_ofNat']
  omega

theorem fitsThree_ofNat {v : ℕ} (h : 0x800 ≤ v) (hv : v < 0xd800 ∨ 0xdfff < v)
    (hmax : v < 0x10000) :
    fitsThree (UInt8.ofNat (v / 4096 % 0x10 + 0xe0)).toNat (UInt8.ofNat (v / 64 % 0x40 + 0x80)) =
      true := by
  unfold fitsThree
  rw [isCont_ofNat, UInt8.toNat_ofNat', UInt8.toNat_ofNat', Bool.true_and, Bool.and_eq_true,
    Bool.not_eq_true', Bool.not_eq_true', Bool.and_eq_false_iff, Bool.and_eq_false_iff,
    beq_eq_false_iff_ne, beq_eq_false_iff_ne, decide_eq_false_iff_not, decide_eq_false_iff_not]
  omega

theorem fitsFour_ofNat {v : ℕ} (h : 0x10000 ≤ v) (hmax : v < 0x110000) :
    fitsFour (UInt8.ofNat (v / 262144 % 0x08 + 0xf0)).toNat (UInt8.ofNat (v / 4096 % 0x40 + 0x80)) =
      true := by
  unfold fitsFour
  rw [isCont_ofNat, UInt8.toNat_ofNat', UInt8.toNat_ofNat', Bool.true_and, Bool.and_eq_true,
    Bool.not_eq_true', Bool.not_eq_true', Bool.and_eq_false_iff, Bool.and_eq_false_iff,
    beq_eq_false_iff_ne, beq_eq_false_iff_ne, decide_eq_false_iff_not, decide_eq_false_iff_not]
  omega

theorem val_valid (c : Char) :
    c.val.toNat < 0xd800 ∨ 0xdfff < c.val.toNat ∧ c.val.toNat < 0x110000 :=
  c.valid

/-- **Decoding an encoded character.** -/
theorem decodeIgnore_utf8EncodeChar (c : Char) (bs : List UInt8) :
    decodeIgnore (String.utf8EncodeChar c ++ bs) = c :: decodeIgnore bs := by
  have hvalid := val_valid c
  have hchar : Char.ofNat c.val.toNat = c := Char.ofNat_toNat c
  unfold String.utf8EncodeChar
  simp only
  split_ifs with h1 h2 h3
  · have hb : (UInt8.ofNat c.val.toNat).toNat = c.val.toNat := by
      rw [UInt8.toNat_ofNat']
      omega
    rw [List.singleton_append, decodeIgnore_one (by omega), hb, hchar]
  · have hb : (UInt8.ofNat (c.val.toNat / 64 % 0x20 + 0xc0)).toNat =
        c.val.toNat / 64 + 0xc0 := by
      rw [UInt8.toNat_ofNat']
      omega
    rw [List.cons_append, List.singleton_append,
      decodeIgnore_two (by omega) (by omega) isCont_ofNat, contBits_ofNat, hb]
    rw [show (c.val.toNat / 64 + 0xc0) % 0x20 * 0x40 + c.val.toNat % 0x40 = c.val.toNat by omega,
      hchar]
  · have hb : (UInt8.ofNat (c.val.toNat / 4096 % 0x10 + 0xe0)).toNat =
        c.val.toNat / 4096 + 0xe0 := by
      rw [UInt8.toNat_ofNat']
      omega
    rw [List.cons_append, List.cons_append, List.singleton_append,
      decodeIgnore_three (by omega) (by omega)
        (fitsThree_ofNat (by omega) (by omega) (by omega)) isCont_ofNat,
      contBits_ofNat, contBits_ofNat, hb]
    rw [show (c.val.toNat / 4096 + 0xe0) % 0x10 * 0x1000 + c.val.toNat / 64 % 0x40 * 0x40 +
      c.val.toNat % 0x40 = c.val.toNat by omega, hchar]
  · have hb : (UInt8.ofNat (c.val.toNat / 262144 % 0x08 + 0xf0)).toNat =
        c.val.toNat / 262144 + 0xf0 := by
      rw [UInt8.toNat_ofNat']
      omega
    rw [List.cons_append, List.cons_append, List.cons_append, List.singleton_append,
      decodeIgnore_four (by omega) (by omega) (fitsFour_ofNat (by omega) (by omega))
        isCont_ofNat isCont_ofNat,
      contBits_ofNat, contBits_ofNat, contBits_ofNat, hb]
    rw [show (c.val.toNat / 262144 + 0xf0) % 0x8 * 0x40000 + c.val.toNat / 4096 % 0x40 * 0x1000 +
      c.val.toNat / 64 % 0x40 * 0x40 + c.val.toNat % 0x40 = c.val.toNat by omega, hchar]

/-- **Decoding a part of an encoded character.** -/
theorem decodeIgnore_take_utf8EncodeChar {c : Char} {k : ℕ} (hk : k < c.utf8Size) :
    decodeIgnore ((String.utf8EncodeChar c).take k) = [] := by
  have hvalid := val_valid c
  rw [← String.length_utf8EncodeChar] at hk
  unfold String.utf8EncodeChar at hk ⊢
  simp only at hk ⊢
  split_ifs at hk ⊢ with h1 h2 h3
  all_goals simp only [List.length_cons, List.length_nil] at hk
  · interval_cases k
    rfl
  · have hb : (UInt8.ofNat (c.val.toNat / 64 % 0x20 + 0xc0)).toNat =
        c.val.toNat / 64 + 0xc0 := by
      rw [UInt8.toNat_ofNat']
      omega
    interval_cases k
    · rfl
    · exact decodeIgnore_cut_one (by omega) (by omega)
  · have hb : (UInt8.ofNat (c.val.toNat / 4096 % 0x10 + 0xe0)).toNat =
        c.val.toNat / 4096 + 0xe0 := by
      rw [UInt8.toNat_ofNat']
      omega
    interval_cases k
    · rfl
    · exact decodeIgnore_cut_one (by omega) (by omega)
    · exact decodeIgnore_cut_two (by omega) (by omega)
        (fun _ => fitsThree_ofNat (by omega) (by omega) (by omega)) (by omega)
  · have hb : (UInt8.ofNat (c.val.toNat / 262144 % 0x08 + 0xf0)).toNat =
        c.val.toNat / 262144 + 0xf0 := by
      rw [UInt8.toNat_ofNat']
      omega
    interval_cases k
    · rfl
    · exact decodeIgnore_cut_one (by omega) (by omega)
    · exact decodeIgnore_cut_two (by omega) (by omega) (by omega)
        (fun _ => fitsFour_ofNat (by omega) (by omega))
    · exact decodeIgnore_cut_three (by omega) (by omega)
        (fitsFour_ofNat (by omega) (by omega)) isCont_ofNat

/-! ## The longest part that fits -/

/-- The characters from the first on that take at most `n` bytes. -/
def fitting (n : ℕ) : List Char → List Char
  | [] => []
  | c :: cs => if c.utf8Size ≤ n then c :: fitting (n - c.utf8Size) cs else []

/-- **A cut encoding** decodes to the characters that fit. -/
theorem decodeIgnore_take (n : ℕ) (cs : List Char) :
    decodeIgnore ((cs.flatMap String.utf8EncodeChar).take n) = fitting n cs := by
  induction cs generalizing n with
  | nil =>
    rw [List.flatMap_nil, List.take_nil]
    rfl
  | cons c cs ih =>
    have hlen : (String.utf8EncodeChar c).length = c.utf8Size := String.length_utf8EncodeChar c
    rw [List.flatMap_cons, List.take_append, hlen]
    by_cases h : c.utf8Size ≤ n
    · rw [List.take_of_length_le (by omega), decodeIgnore_utf8EncodeChar, ih, fitting, if_pos h]
    · rw [Nat.sub_eq_zero_of_le (by omega), List.take_zero, List.append_nil,
        decodeIgnore_take_utf8EncodeChar (by omega), fitting, if_neg h]

theorem fitting_prefix (n : ℕ) (cs : List Char) : fitting n cs <+: cs := by
  induction cs generalizing n with
  | nil => exact List.prefix_rfl
  | cons c cs ih =>
    rw [fitting]
    split_ifs
    · exact (List.prefix_cons_inj c).mpr (ih _)
    · exact List.nil_prefix

theorem prefix_fitting {n : ℕ} {ps cs : List Char} (h : ps <+: cs) (hw : width ps ≤ n) :
    ps <+: fitting n cs := by
  induction cs generalizing n ps with
  | nil => exact h
  | cons c cs ih =>
    cases ps with
    | nil => exact List.nil_prefix
    | cons p ps =>
      obtain ⟨rfl, htail⟩ := List.cons_prefix_cons.mp h
      rw [width_cons] at hw
      rw [fitting, if_pos (by omega)]
      exact (List.prefix_cons_inj p).mpr (ih htail (by omega))

end MMRelay

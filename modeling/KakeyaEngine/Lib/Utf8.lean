import KakeyaEngine.Lib.PrefixCode

/-!
# UTF-8

The well-formed byte sequences of Unicode as a `PrefixCode`: `Utf8.code` reads exactly the encodings of characters
(`read_eq_complete_iff`).  Lossy decoding puts U+FFFD for every maximal beginning of a character that does not go on as
one.
-/

namespace Utf8

/-! ### Well-formed sequences -/

/-- How many bytes a character has that begins with `a`, or 0 if none does. -/
def size (a : UInt8) : Nat :=
  if a.toNat ≤ 0x7F then 1
  else if a.toNat < 0xC2 then 0
  else if a.toNat ≤ 0xDF then 2
  else if a.toNat ≤ 0xEF then 3
  else if a.toNat ≤ 0xF4 then 4
  else 0

/-- A continuation byte. -/
def isTail (b : UInt8) : Bool := 0x80 ≤ b.toNat && b.toNat ≤ 0xBF

/-- The second bytes after `a`: there is no overlong sequence, no surrogate and nothing after U+10FFFF. -/
def isSecond (a b : UInt8) : Bool :=
  isTail b && (a.toNat != 0xE0 || 0xA0 ≤ b.toNat) && (a.toNat != 0xED || b.toNat ≤ 0x9F) &&
    (a.toNat != 0xF0 || 0x90 ≤ b.toNat) && (a.toNat != 0xF4 || b.toNat ≤ 0x8F)

/-- The well-formed sequences and their beginnings. -/
def fits : List UInt8 → Bool
  | [] => true
  | [a] => 0 < size a
  | a :: b :: rest => isSecond a b && rest.all isTail && rest.length + 2 ≤ size a

/-- The bits of a first byte. -/
def lead (a : UInt8) : Nat :=
  if a.toNat ≤ 0x7F then a.toNat
  else if a.toNat ≤ 0xDF then a.toNat - 0xC0
  else if a.toNat ≤ 0xEF then a.toNat - 0xE0
  else a.toNat - 0xF0

/-- The scalar value of a sequence. -/
def scalar : List UInt8 → Nat
  | [] => 0
  | a :: rest => rest.foldl (fun v b => 64 * v + (b.toNat - 0x80)) (lead a)

/-- What the bytes since the last character are. -/
def read (bs : List UInt8) : Reading Char :=
  match bs with
  | [] => .more
  | a :: rest =>
    if fits (a :: rest) then
      if rest.length + 1 = size a then .complete (Char.ofNat (scalar (a :: rest))) else .more
    else .invalid

theorem read_ne_invalid_iff {a : UInt8} {rest : List UInt8} : read (a :: rest) ≠ .invalid ↔ fits (a :: rest) = true := by
  unfold read
  dsimp only
  by_cases hfits : fits (a :: rest) = true
  · rw [if_pos hfits]
    refine iff_of_true ?_ hfits
    split
    · exact fun h => by cases h
    · exact fun h => by cases h
  · rw [if_neg hfits]
    exact iff_of_false (fun h => h rfl) hfits

theorem read_eq_more {a : UInt8} {rest : List UInt8} (hfits : fits (a :: rest) = true) (hlen : rest.length + 1 < size a) :
    read (a :: rest) = .more := by
  unfold read
  dsimp only
  rw [if_pos hfits, if_neg (by omega)]

/-- The beginning of a sequence that is not invalid wants more. -/
theorem more_of_append {u : List UInt8} {b : UInt8} {w : List UInt8} (h : read (u ++ b :: w) ≠ .invalid) :
    read u = .more := by
  cases u with
  | nil => rfl
  | cons a rest =>
    have hfits : fits (a :: (rest ++ b :: w)) = true := read_ne_invalid_iff.1 h
    cases rest with
    | nil =>
      simp only [List.nil_append, fits, Bool.and_eq_true, decide_eq_true_eq] at hfits
      exact read_eq_more (by simp only [fits, decide_eq_true_eq]; omega) (by simp only [List.length_nil]; omega)
    | cons b' rest =>
      simp only [List.cons_append, fits, Bool.and_eq_true, decide_eq_true_eq, List.all_append, List.length_append,
        List.length_cons] at hfits
      obtain ⟨⟨hsecond, htails, -⟩, hlen⟩ := hfits
      refine read_eq_more ?_ (by simp only [List.length_cons]; omega)
      simp only [fits, Bool.and_eq_true, decide_eq_true_eq]
      exact ⟨⟨hsecond, htails⟩, by omega⟩

/-- What may begin a character does not continue one. -/
theorem invalid_of_begin {u : List UInt8} {b : UInt8} (hu : u ≠ []) (hb : read [b] ≠ .invalid) :
    read (u ++ [b]) = .invalid := by
  have hsize : 0 < size b := by
    simpa [fits] using read_ne_invalid_iff.1 hb
  have htail : isTail b = false := by
    unfold size at hsize
    unfold isTail
    simp only [Bool.and_eq_false_iff, decide_eq_false_iff_not]
    split at hsize
    · omega
    · split at hsize
      · omega
      · omega
  obtain ⟨a, rest, rfl⟩ := List.exists_cons_of_ne_nil hu
  refine Classical.byContradiction fun hvalid => ?_
  have hfits : fits (a :: (rest ++ [b])) = true := read_ne_invalid_iff.1 hvalid
  cases rest with
  | nil => simp [fits, isSecond, htail] at hfits
  | cons b' rest => simp [fits, htail] at hfits

/-- The code of UTF-8. -/
def code : PrefixCode UInt8 Char where
  read := read
  read_nil := rfl
  more_of_append := more_of_append
  invalid_of_begin := fun hu _ hb => invalid_of_begin hu hb

/-! ### The encodings of characters -/

theorem toNat_ofNat {v : Nat} (h : v.isValidChar) : (Char.ofNat v).toNat = v := by
  unfold Char.ofNat
  rw [dif_pos h]
  rfl

theorem read_of_fits {a : UInt8} {rest : List UInt8} (hfits : fits (a :: rest) = true) (hlen : rest.length + 1 = size a) :
    read (a :: rest) = .complete (Char.ofNat (scalar (a :: rest))) := by
  unfold read
  dsimp only
  rw [if_pos hfits, if_pos hlen]

theorem of_read_complete {bs : List UInt8} {c : Char} (h : read bs = .complete c) :
    ∃ a rest, bs = a :: rest ∧ fits (a :: rest) = true ∧ rest.length + 1 = size a ∧
      c = Char.ofNat (scalar (a :: rest)) := by
  cases bs with
  | nil => cases h
  | cons a rest =>
    unfold read at h
    dsimp only at h
    split at h
    · rename_i hfits
      split at h
      · rename_i hlen
        exact ⟨a, rest, rfl, hfits, hlen, (Reading.complete.inj h).symm⟩
      · cases h
    · cases h

theorem size_eq_one_iff {a : UInt8} : size a = 1 ↔ a.toNat ≤ 0x7F := by
  unfold size
  grind

theorem size_eq_two_iff {a : UInt8} : size a = 2 ↔ 0xC2 ≤ a.toNat ∧ a.toNat ≤ 0xDF := by
  unfold size
  grind

theorem size_eq_three_iff {a : UInt8} : size a = 3 ↔ 0xE0 ≤ a.toNat ∧ a.toNat ≤ 0xEF := by
  unfold size
  grind

theorem size_eq_four_iff {a : UInt8} : size a = 4 ↔ 0xF0 ≤ a.toNat ∧ a.toNat ≤ 0xF4 := by
  unfold size
  grind

theorem isTail_iff {b : UInt8} : isTail b = true ↔ 0x80 ≤ b.toNat ∧ b.toNat ≤ 0xBF := by
  unfold isTail
  rw [Bool.and_eq_true, decide_eq_true_eq, decide_eq_true_eq]

theorem isSecond_iff {a b : UInt8} :
    isSecond a b = true ↔ (0x80 ≤ b.toNat ∧ b.toNat ≤ 0xBF) ∧ (a.toNat = 0xE0 → 0xA0 ≤ b.toNat) ∧
      (a.toNat = 0xED → b.toNat ≤ 0x9F) ∧ (a.toNat = 0xF0 → 0x90 ≤ b.toNat) ∧ (a.toNat = 0xF4 → b.toNat ≤ 0x8F) := by
  unfold isSecond
  simp only [Bool.and_eq_true, Bool.or_eq_true, bne_iff_ne, decide_eq_true_eq, isTail_iff]
  grind

/-- The bytes of a scalar value. -/
def bytesOf (v : Nat) : List Nat :=
  if v ≤ 0x7F then [v]
  else if v ≤ 0x7FF then [v / 64 + 0xC0, v % 64 + 0x80]
  else if v ≤ 0xFFFF then [v / 4096 + 0xE0, v / 64 % 64 + 0x80, v % 64 + 0x80]
  else [v / 262144 + 0xF0, v / 4096 % 64 + 0x80, v / 64 % 64 + 0x80, v % 64 + 0x80]

theorem toNat_byte {n : Nat} (h : n < 256) : (UInt8.ofNat n).toNat = n := UInt8.toNat_ofNat_of_lt' h

theorem map_encode (c : Char) : (String.utf8EncodeChar c).map UInt8.toNat = bytesOf c.toNat := by
  have hvalid : c.toNat.isValidChar := c.valid
  unfold String.utf8EncodeChar bytesOf
  dsimp only
  rw [Char.toNat_val]
  generalize c.toNat = v at hvalid ⊢
  by_cases h1 : v ≤ 0x7F
  · rw [if_pos h1, if_pos h1]
    simp only [List.map_cons, List.map_nil]
    rw [toNat_byte (by omega)]
  · rw [if_neg h1, if_neg h1]
    by_cases h2 : v ≤ 0x7FF
    · rw [if_pos h2, if_pos h2]
      simp only [List.map_cons, List.map_nil]
      rw [toNat_byte (by omega), toNat_byte (by omega), Nat.mod_eq_of_lt (by omega)]
    · rw [if_neg h2, if_neg h2]
      by_cases h3 : v ≤ 0xFFFF
      · rw [if_pos h3, if_pos h3]
        simp only [List.map_cons, List.map_nil]
        rw [toNat_byte (by omega), toNat_byte (by omega), toNat_byte (by omega), Nat.mod_eq_of_lt (by omega)]
      · rw [if_neg h3, if_neg h3]
        simp only [List.map_cons, List.map_nil]
        rw [toNat_byte (by omega), toNat_byte (by omega), toNat_byte (by omega), toNat_byte (by omega)]
        rw [Nat.mod_eq_of_lt (a := v / 262144) (by omega)]

/-- The bytes of a scalar value are a sequence of full length with that value. -/
theorem of_bytesOf {a : UInt8} {rest : List UInt8} {v : Nat} (hv : v.isValidChar)
    (h : (a :: rest).map UInt8.toNat = bytesOf v) :
    fits (a :: rest) = true ∧ rest.length + 1 = size a ∧ scalar (a :: rest) = v := by
  unfold bytesOf at h
  by_cases h1 : v ≤ 0x7F
  · rw [if_pos h1, List.map_cons, List.cons_eq_cons] at h
    obtain ⟨ha, hrest⟩ := h
    obtain rfl := List.map_eq_nil_iff.1 hrest
    have hsize : size a = 1 := size_eq_one_iff.2 (by omega)
    refine ⟨by simp [fits, hsize], hsize.symm, ?_⟩
    rw [scalar, List.foldl_nil, lead, if_pos (by omega), ha]
  · rw [if_neg h1] at h
    by_cases h2 : v ≤ 0x7FF
    · rw [if_pos h2] at h
      obtain ⟨b, rest, rfl⟩ : ∃ b t, rest = b :: t := by
        cases rest with
        | nil => simp at h
        | cons b t => exact ⟨b, t, rfl⟩
      simp only [List.map_cons, List.cons_eq_cons, List.map_eq_nil_iff] at h
      obtain ⟨ha, hb, rfl⟩ := h
      have hsize : size a = 2 := size_eq_two_iff.2 (by omega)
      refine ⟨?_, hsize.symm, ?_⟩
      · simp only [fits, List.all_nil, Bool.and_true, Bool.and_eq_true, decide_eq_true_eq, List.length_nil, hsize]
        exact ⟨isSecond_iff.2 (by omega), by omega⟩
      · simp only [scalar, List.foldl_cons, List.foldl_nil, lead]
        rw [if_neg (by omega), if_pos (by omega), ha, hb]
        omega
    · rw [if_neg h2] at h
      by_cases h3 : v ≤ 0xFFFF
      · rw [if_pos h3] at h
        obtain ⟨b, c, rfl⟩ : ∃ b c, rest = [b, c] := by
          rcases rest with _ | ⟨b, _ | ⟨c, _ | ⟨d, t⟩⟩⟩
          · simp at h
          · simp at h
          · exact ⟨b, c, rfl⟩
          · simp at h
        simp only [List.map_cons, List.map_nil, List.cons_eq_cons, and_true] at h
        obtain ⟨ha, hb, hc⟩ := h
        have hsize : size a = 3 := size_eq_three_iff.2 (by omega)
        refine ⟨?_, hsize.symm, ?_⟩
        · simp only [fits, List.all_cons, List.all_nil, Bool.and_true, Bool.and_eq_true, decide_eq_true_eq,
            List.length_cons, List.length_nil, hsize]
          exact ⟨⟨isSecond_iff.2 (by omega), isTail_iff.2 (by omega)⟩, by omega⟩
        · simp only [scalar, List.foldl_cons, List.foldl_nil, lead]
          rw [if_neg (by omega), if_neg (by omega), if_pos (by omega), ha, hb, hc]
          omega
      · rw [if_neg h3] at h
        obtain ⟨b, c, d, rfl⟩ : ∃ b c d, rest = [b, c, d] := by
          rcases rest with _ | ⟨b, _ | ⟨c, _ | ⟨d, _ | ⟨e, t⟩⟩⟩⟩
          · simp at h
          · simp at h
          · simp at h
          · exact ⟨b, c, d, rfl⟩
          · simp at h
        simp only [List.map_cons, List.map_nil, List.cons_eq_cons, and_true] at h
        obtain ⟨ha, hb, hc, hd⟩ := h
        have hsize : size a = 4 := size_eq_four_iff.2 (by omega)
        refine ⟨?_, hsize.symm, ?_⟩
        · simp only [fits, List.all_cons, List.all_nil, Bool.and_true, Bool.and_eq_true, decide_eq_true_eq,
            List.length_cons, List.length_nil, hsize]
          exact ⟨⟨isSecond_iff.2 (by omega), isTail_iff.2 (by omega), isTail_iff.2 (by omega)⟩, by omega⟩
        · simp only [scalar, List.foldl_cons, List.foldl_nil, lead]
          rw [if_neg (by omega), if_neg (by omega), if_neg (by omega), ha, hb, hc, hd]
          omega

/-- A sequence of full length is the bytes of its scalar value. -/
theorem bytesOf_scalar {a : UInt8} {rest : List UInt8} (hfits : fits (a :: rest) = true) (hlen : rest.length + 1 = size a) :
    (scalar (a :: rest)).isValidChar ∧ (a :: rest).map UInt8.toNat = bytesOf (scalar (a :: rest)) := by
  match rest with
  | [] =>
    have ha := size_eq_one_iff.1 hlen.symm
    have hscalar : scalar [a] = a.toNat := by rw [scalar, List.foldl_nil, lead, if_pos ha]
    rw [hscalar]
    refine ⟨Or.inl (by omega), ?_⟩
    rw [bytesOf, if_pos ha]
    rfl
  | [b] =>
    have ha := size_eq_two_iff.1 hlen.symm
    have hb : isSecond a b = true := by
      simp only [fits, List.all_nil, Bool.and_true, Bool.and_eq_true] at hfits
      exact hfits.1
    rw [isSecond_iff] at hb
    have hscalar : scalar [a, b] = 64 * (a.toNat - 0xC0) + (b.toNat - 0x80) := by
      simp only [scalar, List.foldl_cons, List.foldl_nil, lead]
      rw [if_neg (by omega), if_pos (by omega)]
    rw [hscalar]
    refine ⟨Or.inl (by omega), ?_⟩
    rw [bytesOf, if_neg (by omega), if_pos (by omega)]
    simp only [List.map_cons, List.map_nil, List.cons_eq_cons, and_true]
    omega
  | [b, c] =>
    have ha := size_eq_three_iff.1 hlen.symm
    simp only [fits, List.all_cons, List.all_nil, Bool.and_true, Bool.and_eq_true, isSecond_iff, isTail_iff] at hfits
    have hscalar : scalar [a, b, c] = 4096 * (a.toNat - 0xE0) + 64 * (b.toNat - 0x80) + (c.toNat - 0x80) := by
      simp only [scalar, List.foldl_cons, List.foldl_nil, lead]
      rw [if_neg (by omega), if_neg (by omega), if_pos (by omega)]
      omega
    rw [hscalar]
    refine ⟨?_, ?_⟩
    · unfold Nat.isValidChar
      omega
    · rw [bytesOf, if_neg (by omega), if_neg (by omega), if_pos (by omega)]
      simp only [List.map_cons, List.map_nil, List.cons_eq_cons, and_true]
      omega
  | [b, c, d] =>
    have ha := size_eq_four_iff.1 hlen.symm
    simp only [fits, List.all_cons, List.all_nil, Bool.and_true, Bool.and_eq_true, isSecond_iff, isTail_iff] at hfits
    have hscalar : scalar [a, b, c, d] =
        262144 * (a.toNat - 0xF0) + 4096 * (b.toNat - 0x80) + 64 * (c.toNat - 0x80) + (d.toNat - 0x80) := by
      simp only [scalar, List.foldl_cons, List.foldl_nil, lead]
      rw [if_neg (by omega), if_neg (by omega), if_neg (by omega)]
      omega
    rw [hscalar]
    refine ⟨?_, ?_⟩
    · unfold Nat.isValidChar
      omega
    · rw [bytesOf, if_neg (by omega), if_neg (by omega), if_neg (by omega)]
      simp only [List.map_cons, List.map_nil, List.cons_eq_cons, and_true]
      omega
  | _ :: _ :: _ :: _ :: _ =>
    have hle : size a ≤ 4 := by
      unfold size
      grind
    simp only [List.length_cons] at hlen
    omega

/-- The sequences that are read as a character are its encoding. -/
theorem read_eq_complete_iff {bs : List UInt8} {c : Char} : read bs = .complete c ↔ bs = String.utf8EncodeChar c := by
  have hvalid : c.toNat.isValidChar := c.valid
  constructor
  · intro h
    obtain ⟨a, rest, rfl, hfits, hlen, rfl⟩ := of_read_complete h
    obtain ⟨hscalar, hbytes⟩ := bytesOf_scalar hfits hlen
    have hmap := map_encode (Char.ofNat (scalar (a :: rest)))
    rw [toNat_ofNat hscalar, ← hbytes] at hmap
    exact (List.map_inj_right fun _ _ => UInt8.toNat_inj.1).1 hmap.symm
  · intro h
    have hmap := map_encode c
    rw [← h] at hmap
    cases bs with
    | nil => exact absurd h.symm String.utf8EncodeChar_ne_nil
    | cons a rest =>
      obtain ⟨hfits, hlen, hscalar⟩ := of_bytesOf hvalid hmap
      rw [read_of_fits hfits hlen, hscalar, Char.ofNat_toNat]

/-! ### Lossy decoding -/

/-- U+FFFD. -/
def replacement : Char := Char.ofNat 0xFFFD

/-- Decoding with U+FFFD for what is not well-formed. -/
def decode (bs : List UInt8) : List Char := code.decode replacement bs

end Utf8

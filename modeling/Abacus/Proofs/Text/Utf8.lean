import Abacus.Text.Utf8

/-!
Where reading bytes can be cut: an ASCII byte is part of no longer sequence, so what stands before
it and what follows are read apart. Where the bytes are those of a text, reading gives the text, and
they are in order where the texts are.
-/
namespace Abacus.Text.Utf8

def Begun (started : Option Partial) : Prop :=
  ∀ p ∈ started, 0x80 ≤ p.least

theorem begun_none : Begun none := by
  simp [Begun]

theorem begun_of_lead (b : UInt8) (p : Partial) (sequence : lead b = .sequence p) :
    Begun (some p) := by
  intro q same
  obtain rfl : p = q := by simpa using same
  unfold lead at sequence
  grind

theorem lead_of_lt (b : UInt8) (ascii : b < 0x80) : lead b = .single (Char.ofNat b.toNat) := by
  simp [lead, ascii]

theorem read_lead_append (b : UInt8) (longer shorter : Option Partial → List Char)
    (tail : List Char)
    (same : ∀ started, Begun started → longer started = shorter started ++ tail) :
    (lead b).read longer = (lead b).read shorter ++ tail := by
  cases begins : lead b with
  | single c => simp [Lead.read, same none begun_none]
  | sequence p => simp [Lead.read, same (some p) (begun_of_lead b p begins)]
  | invalid => simp [Lead.read, same none begun_none]

theorem decodeFrom_append_ascii (b : UInt8) (ascii : b < 0x80) (bytes more : List UInt8)
    (started : Option Partial) (begun : Begun started) :
    decodeFrom started (bytes ++ b :: more) =
      decodeFrom started bytes ++ Char.ofNat b.toNat :: decode more := by
  induction bytes generalizing started with
  | nil =>
      cases started with
      | none => simp [decodeFrom, lead_of_lt b ascii, Lead.read, decode]
      | some p =>
          have outside : ¬ (p.least ≤ b ∧ b ≤ p.greatest) := by
            rintro ⟨above, -⟩
            have := begun p rfl
            grind
          simp [decodeFrom, outside, lead_of_lt b ascii, Lead.read, decode]
  | cons first bytes ih =>
      cases started with
      | none => exact read_lead_append first _ _ _ ih
      | some p =>
          simp only [List.cons_append, decodeFrom]
          split
          · split
            · rw [ih none begun_none]
              rfl
            · exact ih _ (by simp [Begun])
          · rw [read_lead_append first _ _ _ ih, List.append_assoc]

theorem decode_append_ascii (b : UInt8) (ascii : b < 0x80) (bytes more : List UInt8) :
    decode (bytes ++ b :: more) = decode bytes ++ Char.ofNat b.toNat :: decode more :=
  decodeFrom_append_ascii b ascii bytes more none begun_none

def encode (text : String) : List UInt8 :=
  text.toUTF8.data.toList

theorem encode_eq_flatMap (text : String) :
    encode text = text.toList.flatMap String.utf8EncodeChar := by
  rw [encode, String.toUTF8_eq_toByteArray, ← String.utf8Encode_toList, List.utf8Encode,
    List.toList_data_toByteArray]

theorem toNat_ofNat_of_lt (n : Nat) (small : n < 0x100) : (UInt8.ofNat n).toNat = n := by
  rw [UInt8.toNat_ofNat', Nat.mod_eq_of_lt small]

theorem lead_ofNat (n : Nat) (small : n < 0x100) :
    lead (UInt8.ofNat n) =
      if n < 0x80 then .single (Char.ofNat n)
      else if n < 0xc2 then .invalid
      else if n < 0xe0 then .sequence ⟨1, 1, 0x80, 0xbf, n % 0x20⟩
      else if n < 0xf0 then
        .sequence ⟨1, 2, if n = 0xe0 then 0xa0 else 0x80, if n = 0xed then 0x9f else 0xbf,
          n % 0x10⟩
      else if n < 0xf5 then
        .sequence ⟨1, 3, if n = 0xf0 then 0x90 else 0x80, if n = 0xf4 then 0x8f else 0xbf,
          n % 0x08⟩
      else .invalid := by
  have code := toNat_ofNat_of_lt n small
  have below (b : UInt8) : (UInt8.ofNat n < b) = (n < b.toNat) := by
    rw [UInt8.lt_iff_toNat_lt, code]
  have same (b : UInt8) : (UInt8.ofNat n = b) = (n = b.toNat) := by
    rw [← UInt8.toNat_inj, code]
  simp only [lead, below, same, code]
  rfl

theorem decodeFrom_ofNat (started : Partial) (n : Nat) (bytes : List UInt8)
    (above : started.least.toNat ≤ n) (below : n ≤ started.greatest.toNat) :
    decodeFrom (some started) (UInt8.ofNat n :: bytes) =
      if started.missing ≤ 1 then
        Char.ofNat (started.bits * 0x40 + n % 0x40) :: decodeFrom none bytes
      else
        decodeFrom (some ⟨started.held + 1, started.missing - 1, 0x80, 0xbf,
          started.bits * 0x40 + n % 0x40⟩) bytes := by
  have code := toNat_ofNat_of_lt n (Nat.lt_of_le_of_lt below started.greatest.toNat_lt)
  have within : started.least ≤ UInt8.ofNat n ∧ UInt8.ofNat n ≤ started.greatest := by
    simp only [UInt8.le_iff_toNat_le, code]
    exact ⟨above, below⟩
  simp only [decodeFrom, if_pos within, code]

theorem decodeFrom_last (held bits n : Nat) (bytes : List UInt8) :
    decodeFrom (some ⟨held, 1, 0x80, 0xbf, bits⟩) (UInt8.ofNat (n % 64 + 128) :: bytes) =
      Char.ofNat (bits * 64 + n % 64) :: decodeFrom none bytes := by
  rw [decodeFrom_ofNat _ _ bytes (by simp) (by simp; omega), if_pos (by simp)]
  rw [show (n % 64 + 128) % 64 = n % 64 by omega]

theorem decodeFrom_utf8EncodeChar (c : Char) (bytes : List UInt8) :
    decodeFrom none (String.utf8EncodeChar c ++ bytes) = c :: decodeFrom none bytes := by
  have valid : c.val.toNat < 0xd800 ∨ 0xdfff < c.val.toNat ∧ c.val.toNat < 0x110000 := c.valid
  have itself : Char.ofNat c.val.toNat = c := Char.ofNat_toNat c
  simp only [String.utf8EncodeChar]
  generalize c.val.toNat = v at valid itself ⊢
  -- The second byte is within its bounds because `v` has no shorter encoding and is no surrogate.
  split
  · rw [List.singleton_append, decodeFrom, lead_ofNat v (by omega), if_pos (by omega)]
    simp only [Lead.read, itself]
  · split
    · rw [List.cons_append, decodeFrom, lead_ofNat _ (by omega), if_neg (by omega),
        if_neg (by omega), if_pos (by omega)]
      simp only [Lead.read, List.cons_append, List.nil_append, decodeFrom_last]
      rw [show (v / 64 % 32 + 192) % 32 * 64 + v % 64 = v by omega, itself]
    · split
      · rw [List.cons_append, decodeFrom, lead_ofNat _ (by omega), if_neg (by omega),
          if_neg (by omega), if_neg (by omega), if_pos (by omega)]
        simp only [Lead.read, List.cons_append, List.nil_append]
        rw [decodeFrom_ofNat _ _ _ (by simp only; split <;> simp; omega)
          (by simp only; split <;> (simp; omega)), if_neg (by simp)]
        simp only [Nat.add_one_sub_one, decodeFrom_last]
        rw [show ((v / 4096 % 16 + 224) % 16 * 64 + (v / 64 % 64 + 128) % 64) * 64 + v % 64 = v by
          omega, itself]
      · rw [List.cons_append, decodeFrom, lead_ofNat _ (by omega), if_neg (by omega),
          if_neg (by omega), if_neg (by omega), if_neg (by omega), if_pos (by omega)]
        simp only [Lead.read, List.cons_append, List.nil_append]
        rw [decodeFrom_ofNat _ _ _ (by simp only; split <;> simp; omega)
          (by simp only; split <;> (simp; omega)), if_neg (by simp),
          decodeFrom_ofNat _ _ _ (by simp) (by simp; omega), if_neg (by simp)]
        simp only [Nat.add_one_sub_one, decodeFrom_last]
        rw [show (((v / 262144 % 8 + 240) % 8 * 64 + (v / 4096 % 64 + 128) % 64) * 64 +
          (v / 64 % 64 + 128) % 64) * 64 + v % 64 = v by omega, itself]

theorem decode_encode (text : String) : decode (encode text) = text.toList := by
  rw [encode_eq_flatMap, decode]
  induction text.toList with
  | nil => rfl
  | cons c text ih => rw [List.flatMap_cons, decodeFrom_utf8EncodeChar, ih]

theorem decode_encode_append (first second : String) :
    decode (encode first ++ encode second) = first.toList ++ second.toList := by
  have joint : encode (first ++ second) = encode first ++ encode second := by simp [encode]
  rw [← joint, decode_encode, String.toList_append]

section Order

theorem ofNat_lt_ofNat_iff (m n : Nat) : UInt8.ofNat m < UInt8.ofNat n ↔ m % 256 < n % 256 := by
  rw [UInt8.lt_iff_toNat_lt, UInt8.toNat_ofNat', UInt8.toNat_ofNat']

theorem ofNat_inj_iff (m n : Nat) : UInt8.ofNat m = UInt8.ofNat n ↔ m % 256 = n % 256 := by
  rw [← UInt8.toNat_inj, UInt8.toNat_ofNat', UInt8.toNat_ofNat']

theorem utf8EncodeChar_append_lt (c d : Char) (bytes more : List UInt8) (less : c < d) :
    String.utf8EncodeChar c ++ bytes < String.utf8EncodeChar d ++ more := by
  have codes : c.val.toNat < d.val.toNat := less
  have valid : d.val.toNat < 0xd800 ∨ 0xdfff < d.val.toNat ∧ d.val.toNat < 0x110000 := d.valid
  simp only [String.utf8EncodeChar]
  generalize c.val.toNat = v at codes ⊢
  generalize d.val.toNat = w at codes valid ⊢
  -- A longer encoding starts with a greater byte. In encodings of one length the first byte that
  -- differs holds the higher bits.
  repeat' split
  all_goals
    simp only [List.cons_append, List.nil_append, List.cons_lt_cons_iff, ofNat_lt_ofNat_iff,
      ofNat_inj_iff]
    simp (disch := omega) only [Nat.mod_eq_of_lt]
    omega

theorem encode_lt_encode (a b : String) (less : a < b) : encode a < encode b := by
  rw [String.lt_iff] at less
  rw [encode_eq_flatMap, encode_eq_flatMap]
  generalize a.toList = x at less ⊢
  generalize b.toList = y at less ⊢
  induction x generalizing y with
  | nil =>
      cases y with
      | nil => exact absurd less (List.lt_irrefl _)
      | cons d y =>
          obtain ⟨b, bytes, encoded⟩ :=
            List.exists_cons_of_ne_nil (String.utf8EncodeChar_ne_nil (c := d))
          rw [List.flatMap_cons, encoded]
          exact List.nil_lt_cons ..
  | cons c x ih =>
      cases y with
      | nil => exact absurd less (List.not_lt_nil _)
      | cons d y =>
          rw [List.flatMap_cons, List.flatMap_cons]
          rcases List.cons_lt_cons_iff.mp less with first | ⟨rfl, rest⟩
          · exact utf8EncodeChar_append_lt c d _ _ first
          · exact List.append_left_lt (ih y rest)

end Order

end Abacus.Text.Utf8

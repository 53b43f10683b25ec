import SealedMetadata.Proofs.Cipher.BlockPermutation
import SealedMetadata.Proofs.Cipher.ChainedBlocks

/-!
Chained blocks, the other way round: what decrypts to a text is the encryption of that text, byte
for byte. A block is encrypted again to itself, and a text has one filling only. So a body without a
text is no encryption, and there are four reasons for that.
-/

namespace SealedMetadata.Cbc

open Aes (Block)

/-- Each block is encrypted again under the encrypted block before it. -/
theorem encryptBlocks_decryptBlocks (keys : List Block) (iv : Block) (cs : List Block) :
    encryptBlocks keys iv (decryptBlocks keys iv cs) = cs := by
  -- the vector of the rest is the encrypted block, in both directions
  induction cs generalizing iv with
  | nil => rfl
  | cons c cs ih =>
    rw [decryptBlocks, encryptBlocks, Block.xor_block_cancel, Aes.encrypt_decrypt, ih]

theorem length_decryptBlocks (keys : List Block) (iv : Block) (cs : List Block) :
    (decryptBlocks keys iv cs).length = cs.length := by
  induction cs generalizing iv with
  | nil => rfl
  | cons c cs ih => rw [decryptBlocks, List.length_cons, ih, List.length_cons]

section Filling

variable {filled text : Bytes} {last : UInt8}

/-- Bytes that end in a filling of a value: as many of them as the value says. -/
structure EndsIn (filled : Bytes) (last : UInt8) : Prop where
  range : 1 ≤ last.toNat ∧ last.toNat ≤ 16
  fits : last.toNat ≤ filled.length
  alike : ∀ b ∈ filled.drop (filled.length - last.toNat), b = last

theorem unfill?_of_endsIn (hlast : filled.getLast? = some last) (h : EndsIn filled last) :
    unfill? filled = some (filled.take (filled.length - last.toNat)) := by
  have hall : (filled.drop (filled.length - last.toNat)).all (· = last) = true := by
    apply List.all_eq_true.mpr
    intro b hb
    exact decide_eq_true (h.alike b hb)
  rw [unfill?, hlast, Option.bind_eq_bind, Option.bind_some]
  dsimp only
  rw [guard_of ⟨h.range.1, h.range.2, h.fits, hall⟩]
  rfl

theorem endsIn_of_unfill? (h : unfill? filled = some text) :
    ∃ last, filled.getLast? = some last ∧ EndsIn filled last ∧
      text = filled.take (filled.length - last.toNat) := by
  rw [unfill?, Option.bind_eq_bind] at h
  -- a text is there only if each step of the check was passed
  obtain ⟨last, hlast, h⟩ := Option.bind_eq_some_iff.mp h
  obtain ⟨u, hguard, h⟩ := Option.bind_eq_some_iff.mp h
  obtain ⟨hpos, hle, hfits, hall⟩ := of_guard hguard
  have halike : ∀ b ∈ filled.drop (filled.length - last.toNat), b = last := by
    intro b hb
    exact of_decide_eq_true (List.all_eq_true.mp hall b hb)
  exact ⟨last, hlast, ⟨⟨hpos, hle⟩, hfits, halike⟩, (Option.some.inj h).symm⟩

/-- A text has one filling only, which is the one that was taken off. -/
theorem fill_of_unfill? (hwhole : 16 ∣ filled.length) (h : unfill? filled = some text) :
    fill text = filled := by
  obtain ⟨last, -, hends, rfl⟩ := endsIn_of_unfill? h
  obtain ⟨hpos, hle⟩ := hends.range
  have hfits := hends.fits
  -- the filling begins so many bytes before the end of a block as its value says
  have hmissing : 16 - (filled.length - last.toNat) % 16 = last.toNat := by omega
  have hbyte : last.toNat.toUInt8 = last := by
    rw [Nat.toUInt8_eq, UInt8.ofNat_toNat]
  have hkept : (filled.take (filled.length - last.toNat)).length =
      filled.length - last.toNat := by
    rw [List.length_take]
    omega
  have htail : filled.drop (filled.length - last.toNat) = List.replicate last.toNat last := by
    apply List.eq_replicate_iff.mpr
    refine ⟨?_, hends.alike⟩
    rw [List.length_drop]
    omega
  calc
    fill (filled.take (filled.length - last.toNat))
      = filled.take (filled.length - last.toNat) ++
          List.replicate last.toNat last.toNat.toUInt8 := by rw [fill, hkept, hmissing]
    _ = filled.take (filled.length - last.toNat) ++
          filled.drop (filled.length - last.toNat) := by rw [hbyte, htail]
    _ = filled := List.take_append_drop _ _

end Filling

section Body

variable {key iv body filled text : Bytes}

/-- The bytes under chained blocks, with their filling if they have one. -/
def unchain? (key iv body : Bytes) : Option Bytes :=
  (Aes.blocks? body).map fun blocks =>
    (decryptBlocks (Aes.roundKeys key) (firstBlock iv) blocks).flatMap Block.bytes

theorem decrypt?_eq_bind (key iv body : Bytes) :
    decrypt? key iv body = (unchain? key iv body).bind unfill? := by
  rw [decrypt?, unchain?]
  cases Aes.blocks? body <;> rfl

theorem length_of_unchain? (h : unchain? key iv body = some filled) :
    filled.length = body.length ∧ 16 ∣ filled.length := by
  obtain ⟨blocks, hblocks, hfilled⟩ := Option.map_eq_some_iff.mp h
  have hbody : body.length = 16 * blocks.length := by
    rw [← Aes.length_flatMap_bytes, Aes.flatMap_bytes_of_blocks? hblocks]
  have hlength : filled.length = 16 * blocks.length := by
    rw [← hfilled, Aes.length_flatMap_bytes, length_decryptBlocks]
  exact ⟨hlength.trans hbody.symm, ⟨blocks.length, hlength⟩⟩

/-- The encryption of a text whose filled bytes are under chained blocks is these blocks. -/
theorem encrypt_of_unchain? (h : unchain? key iv body = some filled) (htext : fill text = filled) :
    encrypt key iv text = body := by
  obtain ⟨blocks, hblocks, hfilled⟩ := Option.map_eq_some_iff.mp h
  have hread : Aes.blocks? (fill text) =
      some (decryptBlocks (Aes.roundKeys key) (firstBlock iv) blocks) := by
    rw [htext, ← hfilled, Aes.blocks?_flatMap_bytes]
  rw [encrypt, hread, Option.getD_some, encryptBlocks_decryptBlocks,
    Aes.flatMap_bytes_of_blocks? hblocks]

/-- A body holds a text exactly if it is the encryption of that text. -/
theorem decrypt?_eq_some_iff : decrypt? key iv body = some text ↔ encrypt key iv text = body := by
  constructor
  · intro h
    rw [decrypt?_eq_bind] at h
    obtain ⟨filled, hfilled, htext⟩ := Option.bind_eq_some_iff.mp h
    have hwhole := (length_of_unchain? hfilled).2
    exact encrypt_of_unchain? hfilled (fill_of_unfill? hwhole htext)
  · rintro rfl
    exact decrypt?_encrypt key iv text

/-- Why a body holds no text under a key and a vector: it is empty, it ends inside a block, or the
bytes under it end in no filling, be it for the last of them or for one before it. -/
inductive Unreadable (key iv body : Bytes) : Prop
  | empty (h : body = [])
  | partialBlock (h : ¬ 16 ∣ body.length)
  | lastByte (filled : Bytes) (last : UInt8) (h : unchain? key iv body = some filled)
      (hlast : filled.getLast? = some last) (hrange : last = 0 ∨ 16 < last)
  | otherByte (filled : Bytes) (last b : UInt8) (h : unchain? key iv body = some filled)
      (hlast : filled.getLast? = some last)
      (hb : b ∈ filled.drop (filled.length - last.toNat)) (hne : b ≠ last)

theorem Unreadable.decrypt?_eq_none (h : Unreadable key iv body) :
    decrypt? key iv body = none := by
  rw [decrypt?_eq_bind]
  cases h with
  | empty h =>
    rw [h]
    rfl
  | partialBlock h =>
    rw [unchain?, Aes.blocks?_eq_none_iff.mpr h]
    rfl
  | lastByte filled last h hlast hrange =>
    rw [h, Option.bind_some]
    apply Option.eq_none_iff_forall_ne_some.mpr
    intro text htext
    obtain ⟨last', hlast', hends, -⟩ := endsIn_of_unfill? htext
    obtain rfl : last' = last := Option.some.inj (hlast'.symm.trans hlast)
    -- a text would make the last byte a possible filling
    obtain ⟨hpos, hle⟩ := hends.range
    rcases hrange with rfl | hlarge
    · exact absurd hpos (by decide)
    · rw [UInt8.lt_iff_toNat_lt] at hlarge
      exact absurd hle (Nat.not_le.mpr hlarge)
  | otherByte filled last b h hlast hb hne =>
    rw [h, Option.bind_some]
    apply Option.eq_none_iff_forall_ne_some.mpr
    intro text htext
    obtain ⟨last', hlast', hends, -⟩ := endsIn_of_unfill? htext
    obtain rfl : last' = last := Option.some.inj (hlast'.symm.trans hlast)
    -- and all bytes of the filling alike
    exact hne (hends.alike b hb)

theorem unreadable_of_decrypt?_eq_none (h : decrypt? key iv body = none) :
    Unreadable key iv body := by
  rw [decrypt?_eq_bind] at h
  cases hfilled : unchain? key iv body with
  | none =>
    rw [unchain?, Option.map_eq_none_iff] at hfilled
    exact .partialBlock (Aes.blocks?_eq_none_iff.mp hfilled)
  | some filled =>
    obtain ⟨hsame, hwhole⟩ := length_of_unchain? hfilled
    rw [hfilled, Option.bind_some] at h
    cases hlast : filled.getLast? with
    | none =>
      rw [List.getLast?_eq_none_iff.mp hlast] at hsame
      exact .empty (List.length_eq_zero_iff.mp hsame.symm)
    | some last =>
      by_cases hrange : 1 ≤ last.toNat ∧ last.toNat ≤ 16
      · -- whole blocks that are not empty have room for every filling
        have hfits : last.toNat ≤ filled.length := by
          have hne : filled ≠ [] := by
            rintro rfl
            cases hlast
          have hpos := List.length_pos_iff.mpr hne
          omega
        by_cases halike : ∀ b ∈ filled.drop (filled.length - last.toNat), b = last
        · rw [unfill?_of_endsIn hlast ⟨hrange, hfits, halike⟩] at h
          cases h
        · push Not at halike
          obtain ⟨b, hb, hne⟩ := halike
          exact .otherByte filled last b hfilled hlast hb hne
      · refine .lastByte filled last hfilled hlast ?_
        rw [UInt8.lt_iff_toNat_lt, ← UInt8.toNat_inj]
        change last.toNat = 0 ∨ 16 < last.toNat
        omega

end Body

end SealedMetadata.Cbc

import Mathlib.Logic.Function.Iterate
import SealedMetadata.Kdf.PasswordKey
import SealedMetadata.Proofs.Bytes.Rows

/-!
Key material as the beginning of one endless stream of digests. Password and salt together are the
seed of the stream, and the lengths that are asked for only say where it is cut. Digests are drawn
for as long as bytes are missing, which ends with the digest in which the last of them lies.
-/

namespace SealedMetadata.DigestStream

/-- The digests of the stream. The first one is of the seed, each later one of the digest before it
and the seed, and each is taken so many times over. -/
def digestAt (seed : Bytes) (iterations : Nat) : Nat → Bytes
  | 0 => Md5.digest^[iterations] seed
  | i + 1 => Md5.digest^[iterations] (digestAt seed iterations i ++ seed)

/-- What the digest at a place follows: nothing at first, then the digest before it. -/
def digestBefore (seed : Bytes) (iterations : Nat) : Nat → Bytes
  | 0 => []
  | i + 1 => digestAt seed iterations i

/-- The first `count` digests of the stream, joined. -/
def joined (seed : Bytes) (iterations count : Nat) : Bytes :=
  (List.range count).flatMap (digestAt seed iterations)

theorem joined_succ (seed : Bytes) (iterations n : Nat) :
    joined seed iterations (n + 1) = joined seed iterations n ++ digestAt seed iterations n :=
  Bytes.row_succ (digestAt seed iterations) n

theorem rehash_eq_iterate (count : Nat) (d : Bytes) : rehash count d = Md5.digest^[count] d := by
  induction count generalizing d with
  | zero => rfl
  | succ count ih => rw [rehash, ih, Function.iterate_succ_apply]

theorem length_rehash (count : Nat) {d : Bytes} (hd : d.length = 16) :
    (rehash count d).length = 16 := by
  induction count generalizing d with
  | zero => exact hd
  | succ count ih => exact ih (Md5.length_digest d)

@[simp] theorem length_next (seed : Bytes) (iterations : Nat) (last : Bytes) :
    (next seed iterations last).length = 16 :=
  length_rehash _ (Md5.length_digest _)

/-- Digests drawn one after the other, for as long as there are fewer than `needed` bytes. -/
def drawUntil (seed : Bytes) (iterations needed : Nat) (derived last : Bytes) : Bytes :=
  if derived.length < needed then
    drawUntil seed iterations needed (derived ++ next seed iterations last)
      (next seed iterations last)
  else derived
termination_by needed - derived.length
decreasing_by
  have hlength := length_next seed iterations last
  rw [List.length_append]
  omega

section Stream

variable (seed : Bytes) {iterations : Nat} (hpos : 1 ≤ iterations)
include hpos

/-- The first digest is one iteration, and the others hash it again. -/
theorem next_digestBefore (n : Nat) :
    next seed iterations (digestBefore seed iterations n) = digestAt seed iterations n := by
  have hcount : iterations - 1 + 1 = iterations := by omega
  have hnext (last : Bytes) :
      next seed iterations last = Md5.digest^[iterations] (last ++ seed) := by
    rw [next, rehash_eq_iterate, ← Function.iterate_succ_apply, Nat.succ_eq_add_one, hcount]
  cases n with
  | zero => exact hnext []
  | succ n => exact hnext (digestAt seed iterations n)

theorem length_digestAt (n : Nat) : (digestAt seed iterations n).length = 16 := by
  have hlength := length_next seed iterations (digestBefore seed iterations n)
  rwa [next_digestBefore seed hpos] at hlength

theorem length_joined (n : Nat) : (joined seed iterations n).length = 16 * n :=
  Bytes.length_row (length_digestAt seed hpos) n

/-- Drawing goes on in the stream where it was left. -/
theorem joined_append_bytes (n count : Nat) :
    joined seed iterations n ++ bytes seed iterations count (digestBefore seed iterations n) =
      joined seed iterations (n + count) := by
  induction count generalizing n with
  | zero => exact List.append_nil _
  | succ count ih =>
    have hnext := next_digestBefore seed hpos n
    have hrest := ih (n + 1)
    have hplace : n + 1 + count = n + (count + 1) := by omega
    rw [hplace, joined_succ] at hrest
    rw [bytes, hnext, ← List.append_assoc]
    exact hrest

theorem bytes_eq_joined (count : Nat) :
    bytes seed iterations count [] = joined seed iterations count := by
  have hall := joined_append_bytes seed hpos 0 count
  rwa [Nat.zero_add] at hall

/-- After `n` digests drawing goes on until there are as many as hold the needed bytes. -/
theorem drawUntil_joined (needed : Nat) {n : Nat} (hn : n ≤ (needed + 15) / 16) :
    drawUntil seed iterations needed (joined seed iterations n)
      (digestBefore seed iterations n) = joined seed iterations ((needed + 15) / 16) := by
  -- by induction on the number of digests that are still to be drawn
  obtain ⟨missing, hmissing⟩ : ∃ missing, n + missing = (needed + 15) / 16 :=
    ⟨(needed + 15) / 16 - n, by omega⟩
  have hlength := length_joined seed hpos n
  induction missing generalizing n with
  | zero =>
    have henough : ¬ (joined seed iterations n).length < needed := by omega
    have hdone : n = (needed + 15) / 16 := by omega
    rw [drawUntil, if_neg henough, hdone]
  | succ missing ih =>
    have hshort : (joined seed iterations n).length < needed := by omega
    have hnext := next_digestBefore seed hpos n
    have hlength' := length_joined seed hpos (n + 1)
    have hrest := ih (n := n + 1) (by omega) (by omega) hlength'
    rw [drawUntil, if_pos hshort, hnext, ← joined_succ]
    exact hrest

/-- A beginning of the stream is the same in whichever digests it is found. -/
theorem take_joined {m n size : Nat} (hm : size ≤ 16 * m) (hn : size ≤ 16 * n) :
    (joined seed iterations m).take size = (joined seed iterations n).take size :=
  Bytes.take_row (length_digestAt seed hpos) hm hn

end Stream

/-- A key and an initial vector that are the beginning of the stream of a seed: together they are
what is drawn until there are enough bytes, and the same beginning of any longer part of it. -/
structure IsCut (seed : Bytes) (iterations keyLength ivLength : Nat) (kv : Bytes × Bytes) :
    Prop where
  length_key : kv.1.length = keyLength
  length_vector : kv.2.length = ivLength
  drawn : kv.1 ++ kv.2 =
    (drawUntil seed iterations (keyLength + ivLength) [] []).take (keyLength + ivLength)
  cut : ∀ count, keyLength + ivLength ≤ 16 * count →
    kv.1 ++ kv.2 = (joined seed iterations count).take (keyLength + ivLength)

theorem isCut_keyAndVector (password salt : Bytes) {iterations : Nat} (hpos : 1 ≤ iterations)
    (k l : Nat) :
    IsCut (password ++ salt) iterations k l (keyAndVector password salt iterations k l) := by
  have hsum : (k : Int) + l = (k + l : Nat) := by omega
  have hneeded : count (k + l) = (k + l + 15) / 16 := by
    rw [count, hsum, Int.toNat_natCast]
  obtain ⟨stream, hstream⟩ :
      ∃ stream, stream = joined (password ++ salt) iterations ((k + l + 15) / 16) := ⟨_, rfl⟩
  have hbytes : bytes (password ++ salt) iterations (count (k + l)) [] = stream := by
    rw [bytes_eq_joined _ hpos, hneeded, hstream]
  have hlength : k + l ≤ stream.length := by
    rw [hstream, length_joined _ hpos]
    omega
  have hkey : stream.slice 0 k = stream.take k :=
    Bytes.slice_natCast stream (i := 0) (Nat.zero_le _) (by omega)
  have hvector : stream.slice k (k + l) = (stream.drop k).take l := by
    rw [hsum, Bytes.slice_natCast stream (by omega) hlength, Nat.add_sub_cancel_left]
  have hparts : keyAndVector password salt iterations k l =
      (stream.take k, (stream.drop k).take l) := by
    rw [← hkey, ← hvector, ← hbytes]
    rfl
  have htogether : stream.take k ++ (stream.drop k).take l = stream.take (k + l) :=
    List.take_add.symm
  have hdrawn : drawUntil (password ++ salt) iterations (k + l) [] [] = stream := by
    rw [hstream]
    exact drawUntil_joined (password ++ salt) hpos (k + l) (Nat.zero_le _)
  rw [hparts]
  refine ⟨?_, ?_, ?_, ?_⟩
  · rw [List.length_take]
    omega
  · rw [List.length_take, List.length_drop]
    omega
  · rw [htogether, hdrawn]
  · intro count hcount
    rw [htogether, hstream]
    exact take_joined (password ++ salt) hpos (by omega) hcount

end SealedMetadata.DigestStream

namespace SealedMetadata.PasswordKey

open DigestStream (IsCut)

theorem keyAndVector_of_lt {iterations : Int} (h : iterations < 1) (password : Secret)
    (salt : Option Bytes) (keyLength ivLength : Int) :
    keyAndVector password salt iterations keyLength ivLength =
      .error (.invalidValue .iterationCount) :=
  if_pos h

theorem keyAndVector_of_le {iterations : Nat} (hpos : 1 ≤ iterations) (password : Secret)
    (salt : Option Bytes) (keyLength ivLength : Int) :
    keyAndVector password salt iterations keyLength ivLength =
      .ok (DigestStream.keyAndVector password.content (salt.getD []) iterations keyLength
        ivLength) := by
  have hcount : ¬ (iterations : Int) < 1 := by omega
  rw [keyAndVector, if_neg hcount, Int.toNat_natCast]

/-- Cuts of one stream begin alike. -/
theorem prefix_or_prefix_of_isCut {seed : Bytes} {iterations k l k' l' : Nat}
    {kv kv' : Bytes × Bytes} (h : IsCut seed iterations k l kv)
    (h' : IsCut seed iterations k' l' kv') :
    kv.1 ++ kv.2 <+: kv'.1 ++ kv'.2 ∨ kv'.1 ++ kv'.2 <+: kv.1 ++ kv.2 := by
  have hcut := h.cut (k + l + (k' + l')) (by omega)
  have hcut' := h'.cut (k + l + (k' + l')) (by omega)
  rw [hcut, hcut']
  exact List.prefix_or_prefix_of_prefix (List.take_prefix _ _) (List.take_prefix _ _)

/-- Cuts of one stream at the same places are the same. -/
theorem eq_of_isCut {seed : Bytes} {iterations k l : Nat} {kv kv' : Bytes × Bytes}
    (h : IsCut seed iterations k l kv) (h' : IsCut seed iterations k l kv') : kv' = kv := by
  have hcut := h.cut (k + l) (by omega)
  have hcut' := h'.cut (k + l) (by omega)
  have hlength : kv'.1.length = kv.1.length := by
    rw [h.length_key, h'.length_key]
  have hparts := List.append_inj (hcut'.trans hcut.symm) hlength
  exact Prod.ext hparts.1 hparts.2

/-- A key and an initial vector of any lengths are cut from the beginning of one stream of digests,
in this order and side by side. The stream is that of the password and the salt, which count only
as they are joined, and of the number of iterations; so of two such cuts one continues the other,
and cuts of the same lengths are the same. Fewer than one iteration are refused whatever else is
asked for. -/
theorem key_material_cut_from_one_stream :
    (∀ (password : Secret) (salt : Option Bytes) (iterations k l : Nat), 1 ≤ iterations →
      ∃ kv, keyAndVector password salt iterations k l = .ok kv ∧
        IsCut (password.content ++ salt.getD []) iterations k l kv ∧
        ∀ (password' : Secret) (salt' : Option Bytes) (k' l' : Nat),
          password'.content ++ salt'.getD [] = password.content ++ salt.getD [] →
          ∃ kv', keyAndVector password' salt' iterations k' l' = .ok kv' ∧
            (kv.1 ++ kv.2 <+: kv'.1 ++ kv'.2 ∨ kv'.1 ++ kv'.2 <+: kv.1 ++ kv.2) ∧
            (k' = k → l' = l → kv' = kv)) ∧
    (∀ (password : Secret) (salt : Option Bytes) (iterations keyLength ivLength : Int),
      iterations < 1 → keyAndVector password salt iterations keyLength ivLength =
        .error (.invalidValue .iterationCount)) := by
  refine ⟨?_, ?_⟩
  · intro password salt iterations k l hpos
    have hcut := DigestStream.isCut_keyAndVector password.content (salt.getD []) hpos k l
    refine ⟨_, keyAndVector_of_le hpos password salt k l, hcut, ?_⟩
    intro password' salt' k' l' hseed
    have hcut' := DigestStream.isCut_keyAndVector password'.content (salt'.getD []) hpos k' l'
    rw [hseed] at hcut'
    refine ⟨_, keyAndVector_of_le hpos password' salt' k' l', ?_, ?_⟩
    · exact prefix_or_prefix_of_isCut hcut hcut'
    · rintro rfl rfl
      exact eq_of_isCut hcut hcut'
  · intro password salt iterations keyLength ivLength hlow
    exact keyAndVector_of_lt hlow password salt keyLength ivLength

/-- Two iterations of the password `test` without a salt, cut inside the first and the second
digest; the same password and a part of it as the salt, uncut; and no iteration at all. -/
theorem password_cut_inside_digests :
    ∃ kv, keyAndVector (.text "test") none (2 : Nat) (5 : Nat) (14 : Nat) = .ok kv ∧
      IsCut (Utf8.encode "test") 2 5 14 kv ∧
      (∃ kv', keyAndVector (.bytes [116, 101]) (some [115, 116]) (2 : Nat) (32 : Nat) (0 : Nat) =
          .ok kv' ∧
        (kv.1 ++ kv.2 <+: kv'.1 ++ kv'.2 ∨ kv'.1 ++ kv'.2 <+: kv.1 ++ kv.2)) ∧
      keyAndVector (.text "test") none 0 (-1) 16 = .error (.invalidValue .iterationCount) := by
  obtain ⟨hcuts, hrefused⟩ := key_material_cut_from_one_stream
  obtain ⟨kv, hkv, hcut, hothers⟩ := hcuts (.text "test") none 2 5 14 (by decide)
  have hseed : (Secret.bytes [116, 101]).content ++ (some [115, 116]).getD [] =
      (Secret.text "test").content ++ (none : Option Bytes).getD [] := by
    decide
  obtain ⟨kv', hkv', halike, -⟩ := hothers (.bytes [116, 101]) (some [115, 116]) 32 0 hseed
  have hnone : (Secret.text "test").content ++ (none : Option Bytes).getD [] =
      Utf8.encode "test" := List.append_nil _
  rw [hnone] at hcut
  exact ⟨kv, hkv, hcut, ⟨kv', hkv', halike⟩, hrefused _ _ 0 (-1) 16 (by decide)⟩

end SealedMetadata.PasswordKey

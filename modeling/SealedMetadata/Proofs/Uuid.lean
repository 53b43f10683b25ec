import Mathlib.Tactic.Ring
import SealedMetadata.Proofs.Text.HexDigits
import SealedMetadata.Proofs.Text.Pieces
import SealedMetadata.Uuid

/-!
Identifiers. The text of an identifier is read as that identifier, and a drawn one carries the
marks of a random identifier, whatever the bytes.
-/

namespace SealedMetadata

namespace Uuid

/-- The version number of an identifier. -/
def version (u : Uuid) : BitVec 4 := u.value.extractLsb' 76 4

/-- The bits of an identifier that name its variant. -/
def variant (u : Uuid) : BitVec 2 := u.value.extractLsb' 62 2

/-- An identifier is marked as a random one of the common variant. -/
def IsRandom (u : Uuid) : Prop := u.version = 4 ∧ u.variant = 2

theorem without_of_not_mem {w : Char} {word cs : List Char} (h : w ∉ cs) :
    without (w :: word) 0 cs = cs := by
  induction cs with
  | nil => rfl
  | cons c cs ih =>
    obtain ⟨hc, hcs⟩ := List.ne_and_not_mem_of_not_mem_cons h
    have hnot : (w :: word).isPrefixOf (c :: cs) = false := by
      rw [List.isPrefixOf_cons_cons, beq_eq_false_iff_ne.mpr hc, Bool.false_and]
    rw [without, hnot, if_neg Bool.false_ne_true, ih hcs]

theorem dropWhile_isBrace {cs : List Char} (h : ∀ c ∈ cs, isBrace c = false) :
    cs.dropWhile isBrace = cs := by
  cases cs with
  | nil => rfl
  | cons c cs =>
    rw [List.dropWhile_cons_of_neg]
    rw [h c List.mem_cons_self]
    exact Bool.false_ne_true

/-- The digits of an identifier. -/
def digits (u : Uuid) : List Char := Text.hexDigits 32 u.value.toNat

/-- The five groups of digits. -/
def groups (u : Uuid) : List (List Char) :=
  [(u.digits.drop 0).take 8, (u.digits.drop 8).take 4, (u.digits.drop 12).take 4,
    (u.digits.drop 16).take 4, (u.digits.drop 20).take 12]

theorem length_digits (u : Uuid) : u.digits.length = 32 := Text.length_hexDigits 32 _

theorem mem_lowerDigits {u : Uuid} {c : Char} (h : c ∈ u.digits) : c ∈ Hex.lowerDigits :=
  Text.mem_lowerDigits_of_mem_hexDigits h

theorem toList_text (u : Uuid) : u.text.toList = ['-'].intercalate u.groups := by
  rw [text, String.toList_intercalate]
  simp only [List.map_cons, List.map_nil, String.toList_ofList]
  rfl

theorem flatten_groups (u : Uuid) : u.groups.flatten = u.digits := by
  have hend : (u.digits.drop 20).take 12 = u.digits.drop 20 :=
    List.take_of_length_le (by rw [List.length_drop, length_digits])
  simp only [groups, List.flatten_cons, List.flatten_nil, List.append_nil, hend]
  rw [show 20 = 16 + 4 from rfl, ← List.drop_drop, List.take_append_drop,
    show 16 = 12 + 4 from rfl, ← List.drop_drop, List.take_append_drop,
    show 12 = 8 + 4 from rfl, ← List.drop_drop, List.take_append_drop,
    show 8 = 0 + 8 from rfl, ← List.drop_drop, List.take_append_drop, List.drop_zero]

theorem hyphen_not_mem {u : Uuid} : ∀ group ∈ u.groups, '-' ∉ group := by
  intro group hgroup hmem
  have hdigit : '-' ∈ u.digits := by
    rw [← flatten_groups]
    exact List.mem_flatten.mpr ⟨group, hgroup, hmem⟩
  exact absurd (mem_lowerDigits hdigit) (by decide)

theorem mem_text {u : Uuid} {c : Char} (h : c ∈ u.text.toList) :
    c = '-' ∨ c ∈ Hex.lowerDigits := by
  by_cases hc : c = '-'
  · exact Or.inl hc
  · refine Or.inr (mem_lowerDigits (u := u) ?_)
    rw [toList_text] at h
    rw [← flatten_groups, ← Text.filter_intercalate hyphen_not_mem]
    exact List.mem_filter.mpr ⟨h, decide_eq_true hc⟩

theorem bareDigits_text (u : Uuid) : bareDigits u.text = u.digits := by
  have hnot : ∀ c, c ≠ '-' → c ∉ Hex.lowerDigits → c ∉ u.text.toList := by
    intro c hhyphen hdigit h
    exact (mem_text h).elim hhyphen hdigit
  have hurn : without "urn:".toList 0 u.text.toList = u.text.toList :=
    without_of_not_mem (hnot 'u' (by decide) (by decide))
  have huuid : without "uuid:".toList 0 u.text.toList = u.text.toList :=
    without_of_not_mem (hnot 'u' (by decide) (by decide))
  have hdigits : ∀ c ∈ Hex.lowerDigits, isBrace c = false := forall_mem_of_all (by decide)
  have hbrace : ∀ c ∈ u.text.toList, isBrace c = false := by
    intro c hc
    rcases mem_text hc with rfl | hdigit
    · rfl
    · exact hdigits c hdigit
  have hfront : u.text.toList.dropWhile isBrace = u.text.toList := dropWhile_isBrace hbrace
  have hback : u.text.toList.reverse.dropWhile isBrace = u.text.toList.reverse :=
    dropWhile_isBrace fun c hc => hbrace c (List.mem_reverse.mp hc)
  rw [bareDigits, hurn, huuid, hfront, hback, List.reverse_reverse, toList_text,
    Text.filter_intercalate hyphen_not_mem, flatten_groups]

/-- An identifier is read back from its text. -/
theorem ofText_text (u : Uuid) : ofText u.text = .ok u := by
  have hne : u.digits ≠ [] := List.ne_nil_of_length_pos (by rw [length_digits]; decide)
  have hall : u.value.toNat % 16 ^ 32 = u.value.toNat := Nat.mod_eq_of_lt u.value.isLt
  have hvalue : BitVec.ofInt 128 (u.value.toNat : Int) = u.value := by
    rw [BitVec.ofInt_natCast, BitVec.ofNat_toNat, BitVec.setWidth_eq]
  have hdigits : Text.IntLiteral.parseChars 16 u.digits = .ok (u.value.toNat : Int) := by
    rw [Text.IntLiteral.parseChars_of_lowerDigits hne fun c => mem_lowerDigits, digits,
      Text.IntLiteral.ofValues_hexDigits, hall]
  rw [ofText, bareDigits_text, if_neg (fun h => h (length_digits u)), hdigits]
  exact congrArg (fun value => (Except.ok (Uuid.mk value) : Except Failure Uuid)) hvalue

/-- The number that bytes spell, most significant first. -/
def number (b : Bytes) : Nat := b.foldl (fun n x => 256 * n + x.toNat) 0

theorem number_cons (x : UInt8) (b : Bytes) :
    number (x :: b) = b.foldl (fun n x => 256 * n + x.toNat) x.toNat := by
  rw [number, List.foldl_cons, Nat.mul_zero, Nat.zero_add]

theorem foldl_number (n : Nat) (b : Bytes) :
    b.foldl (fun n x => 256 * n + x.toNat) n = n * 256 ^ b.length + number b := by
  induction b generalizing n with
  | nil => rw [number, List.foldl_nil, List.foldl_nil, List.length_nil, Nat.pow_zero, Nat.mul_one,
      Nat.add_zero]
  | cons x b ih =>
    rw [List.foldl_cons, number_cons, ih, ih, List.length_cons, Nat.pow_succ]
    ring

theorem number_append (x y : Bytes) :
    number (x ++ y) = number x * 256 ^ y.length + number y := by
  rw [number, List.foldl_append, foldl_number]
  rfl

theorem number_lt (b : Bytes) : number b < 256 ^ b.length := by
  induction b with
  | nil => exact Nat.one_pos
  | cons x b ih =>
    rw [number_cons, foldl_number, List.length_cons]
    calc x.toNat * 256 ^ b.length + number b
        < x.toNat * 256 ^ b.length + 256 ^ b.length := Nat.add_lt_add_left ih _
      _ = (x.toNat + 1) * 256 ^ b.length := by ring
      _ ≤ 256 * 256 ^ b.length := Nat.mul_le_mul_right _ x.toNat_lt
      _ = 256 ^ (b.length + 1) := (Nat.pow_succ').symm

/-- Each byte is found at its place in the number. -/
theorem number_div_mod {b : Bytes} {i : Nat} (hi : i < b.length) :
    number b / 256 ^ (b.length - (i + 1)) % 256 = b[i].toNat := by
  have hsplit : b = (b.take i ++ [b[i]]) ++ b.drop (i + 1) := by
    rw [List.append_assoc, List.singleton_append, ← List.drop_eq_getElem_cons hi,
      List.take_append_drop]
  have hfront : number (b.take i ++ [b[i]]) = 256 * number (b.take i) + b[i].toNat := by
    rw [number, List.foldl_append]
    rfl
  have hback := number_lt (b.drop (i + 1))
  have hnumber : number b = number (b.take i ++ [b[i]]) * 256 ^ (b.length - (i + 1)) +
      number (b.drop (i + 1)) := by
    conv_lhs => rw [hsplit]
    rw [number_append, List.length_drop]
  rw [List.length_drop] at hback
  rw [hnumber, Nat.mul_comm, Nat.mul_add_div (Nat.pow_pos (by decide)), Nat.div_eq_of_lt hback,
    Nat.add_zero, hfront, Nat.mul_add_mod, Nat.mod_eq_of_lt (b[i]).toNat_lt]

theorem isRandom_ofRandomBytes {b : Bytes} (h : b.length = 16) : (ofRandomBytes b).IsRandom := by
  have hversion : ∀ x : UInt8, ((x &&& 0x0f) ||| 0x40).toNat / 16 = 4 := by
    apply forall_byte
    decide +kernel
  have hvariant : ∀ x : UInt8, ((x &&& 0x3f) ||| 0x80).toNat / 64 = 2 := by
    apply forall_byte
    decide +kernel
  obtain ⟨marked, hmarked⟩ : ∃ marked, marked = b.mapIdx fun i x =>
      if i = 6 then (x &&& 0x0f) ||| 0x40 else if i = 8 then (x &&& 0x3f) ||| 0x80 else x :=
    ⟨_, rfl⟩
  have hvalue : ofRandomBytes b = ⟨BitVec.ofNat 128 (number marked)⟩ := by
    rw [hmarked]
    rfl
  have hlength : marked.length = 16 := by rw [hmarked, List.length_mapIdx, h]
  -- the marks are in the bytes at places six and eight
  have h₆ : number marked / 256 ^ 9 % 256 = ((b[6] &&& 0x0f) ||| 0x40).toNat := by
    have hbyte := number_div_mod (b := marked) (i := 6) (by omega)
    simpa only [hmarked, List.length_mapIdx, h, List.getElem_mapIdx, if_true] using hbyte
  have h₈ : number marked / 256 ^ 7 % 256 = ((b[8] &&& 0x3f) ||| 0x80).toNat := by
    have hbyte := number_div_mod (b := marked) (i := 8) (by omega)
    have hother : ¬(8 = 6) := by decide
    simpa only [hmarked, List.length_mapIdx, h, List.getElem_mapIdx, if_true, if_neg hother]
      using hbyte
  have hv := hversion b[6]
  have hw := hvariant b[8]
  rw [hvalue]
  refine ⟨BitVec.eq_of_toNat_eq ?_, BitVec.eq_of_toNat_eq ?_⟩
  · rw [version, BitVec.extractLsb'_toNat, BitVec.toNat_ofNat, Nat.shiftRight_eq_div_pow]
    change number marked % 2 ^ 128 / 2 ^ 76 % 2 ^ 4 = 4
    omega
  · rw [variant, BitVec.extractLsb'_toNat, BitVec.toNat_ofNat, Nat.shiftRight_eq_div_pow]
    change number marked % 2 ^ 128 / 2 ^ 62 % 2 ^ 2 = 2
    omega

end Uuid

end SealedMetadata

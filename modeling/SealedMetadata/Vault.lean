import SealedMetadata.Secret

/-!
Sealed values. Their contents are kept in a vault, from which a content goes for good when it is
wiped; a sealed value itself is only the number of its buffer, so that two names of one value see
the same content.
-/

namespace SealedMetadata

/-- Whether a sealed value holds bytes or text. -/
inductive SealedKind
  | bytes
  | text
  deriving DecidableEq

/-- A sealed value: its kind, and the number of its buffer. -/
structure Sealed where
  kind : SealedKind
  slot : Nat
  deriving DecidableEq

/-- The buffers of all sealed values, in order of creation. -/
structure Vault where
  buffers : Array Bytes

/-- The name under which a kind of sealed value shows itself. -/
def SealedKind.name : SealedKind → String
  | bytes => "SensitiveBytes"
  | text => "SensitiveText"

namespace Vault

def empty : Vault := ⟨#[]⟩

def content (v : Vault) (s : Sealed) : Bytes := v.buffers.getD s.slot []

/-- A new sealed value with its own buffer. -/
def add (v : Vault) (kind : SealedKind) (content : Bytes) : Sealed × Vault :=
  (⟨kind, v.buffers.size⟩, ⟨v.buffers.push content⟩)

/-- The vault with the buffer of a sealed value emptied. -/
def wipe (v : Vault) (s : Sealed) : Vault := ⟨v.buffers.setIfInBounds s.slot []⟩

/-- A sealed value as a secret. -/
def secret (v : Vault) (s : Sealed) : Secret :=
  match s.kind with
  | .bytes => .sealedBytes (v.content s)
  | .text => .sealedText (v.content s)

@[simp] theorem content_secret (v : Vault) (s : Sealed) : (v.secret s).content = v.content s := by
  unfold secret
  split <;> rfl

@[simp] theorem content_add_new (v : Vault) (kind : SealedKind) (content : Bytes) :
    (v.add kind content).2.content (v.add kind content).1 = content := by
  simp [Vault.content, add, Array.getD]

/-- A new sealed value leaves the older ones as they were. -/
theorem content_add_old (v : Vault) (kind : SealedKind) (content : Bytes) {s : Sealed}
    (h : s.slot < v.buffers.size) : (v.add kind content).2.content s = v.content s := by
  simp [Vault.content, add, Array.getD, h, Nat.lt_succ_of_lt h, Array.getElem_push_lt]

/-- Wiping empties the one buffer, for each name of it, and no other. -/
theorem content_wipe (v : Vault) (s t : Sealed) :
    (v.wipe s).content t = if t.slot = s.slot then [] else v.content t := by
  by_cases h : t.slot = s.slot
  · by_cases hs : s.slot < v.buffers.size <;> simp [Vault.content, wipe, Array.getD, h, hs]
  · by_cases ht : t.slot < v.buffers.size
    · simp [Vault.content, wipe, Array.getD, h, ht, Ne.symm h]
    · simp [Vault.content, wipe, Array.getD, h, ht]

end Vault

/-- The content of a sealed value as text, if it is UTF-8. -/
def Sealed.text (s : Sealed) (v : Vault) : Except Failure String :=
  match Utf8.decode? (v.content s) with
  | some t => .ok t
  | none => .error .undecodable

theorem Sealed.text_of_content {s : Sealed} {v : Vault} {t : String}
    (h : v.content s = Utf8.encode t) : s.text v = .ok t := by
  rw [text, h, Utf8.decode?_encode]

end SealedMetadata

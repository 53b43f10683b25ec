import SealedMetadata.Blob.AnyKey
import SealedMetadata.Proofs.Blob.FailureOfBlob

/-!
Several keys tried in order. A search ends with the first key whose answer is not a failure to
decrypt, so it is known from the place of that key. On a blob no answer but a success can follow a
failure to decrypt, since the failure of a blob is the same for all keys.
-/

namespace SealedMetadata.Blob

section Search

variable {α : Type} {tryKey : Secret → Action α} {answer : Secret → Except Failure α}

/-- Trying a key comes to its answer and takes nothing from the random source. -/
def Answers (tryKey : Secret → Action α) (answer : Secret → Except Failure α) : Prop :=
  ∀ key r, ∃ events, (tryKey key).run r = ⟨answer key, events, r⟩

/-- Whether a search ends with an answer. -/
def endsSearch : Except Failure α → Bool
  | .ok _ => true
  | .error e => !e.isDecryption

/-- The search among keys with known answers, after `tried` others: it stops at the first answer
that ends it. -/
def Search.ofAnswers (answer : Secret → Except Failure α) (tried : Nat) (keys : List Secret) :
    Search α :=
  let place := keys.findIdx fun key => endsSearch (answer key)
  match keys[place]? with
  | some key => ⟨tried + place + 1, answer key⟩
  | none => ⟨tried + place, .error (.allKeysFailed (tried + place))⟩

theorem Search.ofAnswers_cons_of_ends {key : Secret} (h : endsSearch (answer key) = true)
    (tried : Nat) (keys : List Secret) :
    ofAnswers answer tried (key :: keys) = ⟨tried + 1, answer key⟩ := by
  simp only [ofAnswers, List.findIdx_cons, h, cond_true, List.getElem?_cons_zero, Nat.add_zero]

theorem Search.ofAnswers_cons_of_moves_on {key : Secret} (h : endsSearch (answer key) = false)
    (tried : Nat) (keys : List Secret) :
    ofAnswers answer tried (key :: keys) = ofAnswers answer (tried + 1) keys := by
  simp only [ofAnswers, List.findIdx_cons, h, cond_false, List.getElem?_cons_succ]
  rw [← Nat.add_assoc, Nat.add_right_comm tried 1]

/-- A search comes to what the answers of the keys say, and never fails itself. -/
theorem result_searchFrom (h : Answers tryKey answer) (tried : Nat) (keys : List Secret)
    (r : RandomSource) :
    ((searchFrom tryKey tried keys).run r).result = .ok (Search.ofAnswers answer tried keys) := by
  -- the rest of the keys is searched with a count that is one higher
  induction keys generalizing tried with
  | nil => rfl
  | cons key keys ih =>
    obtain ⟨events, hkey⟩ := h key r
    rw [searchFrom, Action.result_bind, Action.run_attempt, hkey]
    dsimp only
    cases hanswer : answer key with
    | ok a =>
      rw [Search.ofAnswers_cons_of_ends (by rw [hanswer]; rfl), hanswer]
      rfl
    | error e =>
      dsimp only
      cases he : e.isDecryption with
      | true =>
        rw [if_pos rfl, ih, Search.ofAnswers_cons_of_moves_on]
        rw [hanswer, endsSearch, he]
        rfl
      | false =>
        rw [Search.ofAnswers_cons_of_ends (by rw [hanswer, endsSearch, he]; rfl), hanswer]
        rfl

theorem Search.ofAnswers_of_least {keys : List Secret} {i : Nat} (hi : i < keys.length)
    (hends : endsSearch (answer keys[i]) = true)
    (hbefore : ∀ j (hj : j < i), endsSearch (answer keys[j]) = false) (tried : Nat) :
    ofAnswers answer tried keys = ⟨tried + i + 1, answer keys[i]⟩ := by
  have hplace : (keys.findIdx fun key => endsSearch (answer key)) = i :=
    (List.findIdx_eq hi).mpr ⟨hends, hbefore⟩
  simp only [ofAnswers, hplace, List.getElem?_eq_getElem hi]

theorem Search.ofAnswers_of_none {keys : List Secret}
    (hnone : ∀ key ∈ keys, endsSearch (answer key) = false) (tried : Nat) :
    ofAnswers answer tried keys =
      ⟨tried + keys.length, .error (.allKeysFailed (tried + keys.length))⟩ := by
  have hplace : (keys.findIdx fun key => endsSearch (answer key)) = keys.length :=
    List.findIdx_eq_length.mpr hnone
  simp only [ofAnswers, hplace, List.getElem?_eq_none (Nat.le_refl keys.length)]

/-- A search either stops at the least place whose answer ends it, or has taken all keys. -/
theorem Search.ofAnswers_cases (answer : Secret → Except Failure α) (tried : Nat)
    (keys : List Secret) :
    (∃ (i : Nat) (hi : i < keys.length), endsSearch (answer keys[i]) = true ∧
      (∀ j (hj : j < i), endsSearch (answer keys[j]) = false) ∧
      ofAnswers answer tried keys = ⟨tried + i + 1, answer keys[i]⟩) ∨
    (∀ key ∈ keys, endsSearch (answer key) = false) ∧
      ofAnswers answer tried keys =
        ⟨tried + keys.length, .error (.allKeysFailed (tried + keys.length))⟩ := by
  by_cases hnone : ∀ key ∈ keys, endsSearch (answer key) = false
  · exact Or.inr ⟨hnone, ofAnswers_of_none hnone tried⟩
  · have hplace : (keys.findIdx fun key => endsSearch (answer key)) < keys.length := by
      simpa [List.findIdx_lt_length] using hnone
    obtain ⟨hends, hbefore⟩ := (List.findIdx_eq hplace).mp rfl
    exact Or.inl ⟨_, hplace, hends, hbefore, ofAnswers_of_least hplace hends hbefore tried⟩

theorem Search.exists_ofAnswers_eq_iff {tried : Nat} {keys : List Secret} {a : α} :
    (∃ taken, ofAnswers answer tried keys = ⟨taken, .ok a⟩) ↔
      ∃ key, keys.find? (fun key => endsSearch (answer key)) = some key ∧ answer key = .ok a := by
  rw [List.find?_eq_getElem?_findIdx, ofAnswers]
  cases keys[keys.findIdx fun key => endsSearch (answer key)]? with
  | none => simp only [mk.injEq, reduceCtorEq, and_false, false_and, exists_false]
  | some key => simp only [mk.injEq, exists_eq_left', Option.some.injEq]

theorem Search.ofAnswers_append {front : List Secret}
    (hends : ∃ key ∈ front, endsSearch (answer key) = true) (tried : Nat) (back : List Secret) :
    ofAnswers answer tried (front ++ back) = ofAnswers answer tried front := by
  have hplace := List.findIdx_lt_length.mpr hends
  simp only [ofAnswers, List.findIdx_append, if_pos hplace, List.getElem?_append_left hplace]

end Search

theorem isDecryption_of_kind {e : Failure} (h : e.kind = .decryptionFailed) :
    e.isDecryption = true := by
  cases e <;> first | rfl | cases h

theorem isDecryption_of_formKinds {e : Failure} (h : e.kind ∈ formKinds) :
    e.isDecryption = false := by
  cases e <;> simp_all [Failure.kind, formKinds, Failure.isDecryption]

theorem answers_decrypt (blob : Bytes) : Answers (decrypt blob) (reading blob) := by
  intro key r
  rw [decrypt_eq, reading]
  cases sniff blob with
  | error e => exact ⟨_, rfl⟩
  | ok v => exact ⟨_, rfl⟩

theorem result_decryptWithAny (blob : Bytes) (keys : List Secret) (r : RandomSource) :
    ((decryptWithAny blob keys).run r).result = .ok (Search.ofAnswers (reading blob) 0 keys) :=
  result_searchFrom (answers_decrypt blob) 0 keys r

/-- A failure that lies in the form of a blob is met by every key. -/
theorem reading_of_form_failure {blob : Bytes} (h : (failureOf blob).kind ∈ formKinds)
    (key : Secret) : reading blob key = .error (failureOf blob) := by
  rcases reading_failsOnlyAs blob key with hfails | ⟨hkind, -⟩
  · exact hfails
  · rw [hkind] at h
    exact absurd h (by decide)

theorem kind_failureOf_of_reading_ok {blob text : Bytes} {key : Secret}
    (h : reading blob key = .ok text) : (failureOf blob).kind = .decryptionFailed := by
  rcases reading_failsOnlyAs blob key with hfails | ⟨hkind, -⟩
  · rw [h] at hfails
    cases hfails
  · exact hkind

theorem endsSearch_reading_of_ok {blob text : Bytes} {key : Secret}
    (h : reading blob key = .ok text) : endsSearch (reading blob key) = true := by
  rw [h]
  rfl

theorem endsSearch_reading_of_failed {blob : Bytes} {key : Secret} {e : Failure}
    (h : reading blob key = .error e) (hkind : (failureOf blob).kind = .decryptionFailed) :
    endsSearch (reading blob key) = false := by
  rw [h, eq_failureOf h, endsSearch, isDecryption_of_kind hkind]
  rfl

/-- What it is to try keys on a blob in their order. `tried` counts the keys that were taken. -/
structure TriesInOrder (blob : Bytes) (keys : List Secret) (r : RandomSource)
    (search : Search Bytes) : Prop where
  no_key : keys = [] → search = ⟨0, .error (.allKeysFailed 0)⟩
  form_failure : ∀ key e, ((decrypt blob key).run r).result = .error e → e.kind ∈ formKinds →
    keys ≠ [] → search = ⟨1, .error e⟩
  first_success : ∀ (i : Nat) (hi : i < keys.length) (text : Bytes),
    ((decrypt blob keys[i]).run r).result = .ok text →
    (∀ (j : Nat) (_ : j < i) (t : Bytes), ((decrypt blob keys[j]).run r).result ≠ .ok t) →
    search = ⟨i + 1, .ok text⟩
  no_success : (∀ key ∈ keys, ∃ e, ((decrypt blob key).run r).result = .error e ∧
    e.kind ∉ formKinds) → search = ⟨keys.length, .error (.allKeysFailed keys.length)⟩
  other_failure : ∀ e, search.result = .error e → e.kind ≠ .allKeysFailed → search.tried = 1

/-- A search among keys finds a text. -/
def Finds (blob : Bytes) (keys : List Secret) (r : RandomSource) (text : Bytes) : Prop :=
  ∃ tried, ((decryptWithAny blob keys).run r).result = .ok ⟨tried, .ok text⟩

theorem ofAnswers_of_form_failure {blob : Bytes} (h : (failureOf blob).kind ∈ formKinds)
    {keys : List Secret} (hne : keys ≠ []) :
    Search.ofAnswers (reading blob) 0 keys = ⟨1, .error (failureOf blob)⟩ := by
  obtain ⟨key, rest, rfl⟩ := List.exists_cons_of_ne_nil hne
  have hkey := reading_of_form_failure h key
  rw [Search.ofAnswers_cons_of_ends, hkey]
  rw [hkey, endsSearch, isDecryption_of_formKinds h]
  rfl

theorem ofAnswers_of_first_success {blob text : Bytes} {keys : List Secret} {i : Nat}
    (hi : i < keys.length) (hok : reading blob keys[i] = .ok text)
    (hleast : ∀ j (_ : j < i) t, reading blob keys[j] ≠ .ok t) :
    Search.ofAnswers (reading blob) 0 keys = ⟨i + 1, .ok text⟩ := by
  have hkind := kind_failureOf_of_reading_ok hok
  have hbefore : ∀ j (hj : j < i), endsSearch (reading blob keys[j]) = false := by
    intro j hj
    cases hanswer : reading blob keys[j] with
    | ok t => exact absurd hanswer (hleast j hj t)
    | error e =>
      rw [← hanswer]
      exact endsSearch_reading_of_failed hanswer hkind
  rw [Search.ofAnswers_of_least hi (endsSearch_reading_of_ok hok) hbefore, hok, Nat.zero_add]

theorem ofAnswers_of_no_success {blob : Bytes} {keys : List Secret}
    (h : ∀ key ∈ keys, ∃ e, reading blob key = .error e ∧ e.kind ∉ formKinds) :
    Search.ofAnswers (reading blob) 0 keys =
      ⟨keys.length, .error (.allKeysFailed keys.length)⟩ := by
  have hnone : ∀ key ∈ keys, endsSearch (reading blob key) = false := by
    intro key hkey
    obtain ⟨e, he, hform⟩ := h key hkey
    rw [eq_failureOf he] at hform
    exact endsSearch_reading_of_failed he ((kind_failureOf blob).resolve_left hform)
  rw [Search.ofAnswers_of_none hnone, Nat.zero_add]

theorem tried_of_other_failure {blob : Bytes} {keys : List Secret} {e : Failure}
    (he : (Search.ofAnswers (reading blob) 0 keys).result = .error e)
    (hother : e.kind ≠ .allKeysFailed) : (Search.ofAnswers (reading blob) 0 keys).tried = 1 := by
  rcases Search.ofAnswers_cases (reading blob) 0 keys with
    ⟨i, hi, hends, -, hsearch⟩ | ⟨-, hsearch⟩
  · rw [hsearch] at he
    -- a failure that ends the search lies in the form of the blob, so the first key meets it
    have hform : (failureOf blob).kind ∈ formKinds := by
      rcases kind_failureOf blob with hform | hkind
      · exact hform
      · rw [endsSearch_reading_of_failed he hkind] at hends
        cases hends
    rw [ofAnswers_of_form_failure hform (List.ne_nil_of_length_pos (Nat.zero_lt_of_lt hi))]
  · rw [hsearch] at he
    rw [← Except.error.inj he] at hother
    exact absurd rfl hother

theorem finds_iff {blob text : Bytes} {keys : List Secret} {r : RandomSource} :
    Finds blob keys r text ↔ ∃ key, keys.find? (fun key => endsSearch (reading blob key)) =
      some key ∧ reading blob key = .ok text := by
  simp only [Finds, result_decryptWithAny, Except.ok.injEq]
  exact Search.exists_ofAnswers_eq_iff

theorem finds_insert {blob text : Bytes} {failing : List Secret} {r : RandomSource}
    (h : ∀ key ∈ failing, ∃ e, reading blob key = .error e ∧ e.kind = .decryptionFailed)
    (front back : List Secret) :
    Finds blob (front ++ failing ++ back) r text ↔ Finds blob (front ++ back) r text := by
  have hnone : failing.find? (fun key => endsSearch (reading blob key)) = none := by
    rw [List.find?_eq_none]
    intro key hkey
    obtain ⟨e, he, hkind⟩ := h key hkey
    rw [eq_failureOf he] at hkind
    rw [endsSearch_reading_of_failed he hkind]
    exact Bool.false_ne_true
  rw [finds_iff, finds_iff]
  simp only [List.find?_append, hnone, Option.or_none]

/-- Keys are tried on a blob in their order, until the first one that decrypts it; a blob that no
key could decrypt takes one key only. So keys that fail to decrypt make no difference to what is
found, and neither do keys after the one that decrypts. -/
theorem keys_tried_in_order (blob : Bytes) (r : RandomSource) :
    (∀ keys, ∃ search, ((decryptWithAny blob keys).run r).result = .ok search ∧
      TriesInOrder blob keys r search) ∧
    (∀ front failing back text, (∀ key ∈ failing, ∃ e,
        ((decrypt blob key).run r).result = .error e ∧ e.kind = .decryptionFailed) →
      (Finds blob (front ++ failing ++ back) r text ↔ Finds blob (front ++ back) r text)) ∧
    (∀ front key back back' text, ((decrypt blob key).run r).result = .ok text →
      ((decryptWithAny blob (front ++ key :: back)).run r).result =
        ((decryptWithAny blob (front ++ key :: back')).run r).result) := by
  simp only [result_decrypt, result_decryptWithAny]
  refine ⟨?_, ?_, ?_⟩
  · intro keys
    refine ⟨_, rfl, ?_⟩
    constructor
    · rintro rfl
      rfl
    · intro key e h hform hne
      rw [result_decrypt] at h
      rw [eq_failureOf h] at hform ⊢
      exact ofAnswers_of_form_failure hform hne
    · intro i hi text hok hleast
      simp only [result_decrypt] at hok hleast
      exact ofAnswers_of_first_success hi hok hleast
    · intro h
      simp only [result_decrypt] at h
      exact ofAnswers_of_no_success h
    · intro e he hother
      exact tried_of_other_failure he hother
  · intro front failing back text h
    exact finds_insert h front back
  · -- both lists begin with the same keys up to the one that ends the search
    intro front key back back' text h
    have hends : ∃ k ∈ front ++ [key], endsSearch (reading blob k) = true :=
      ⟨key, List.mem_append_right _ List.mem_cons_self, endsSearch_reading_of_ok h⟩
    rw [List.append_cons front key back, List.append_cons front key back',
      Search.ofAnswers_append hends, Search.ofAnswers_append hends]

/-- The blob of the empty text under the key `key`. -/
def emptyTextBlob : Bytes :=
  Salted.marker ++ List.replicate 8 7 ++
    [44, 136, 181, 36, 254, 20, 56, 243, 198, 251, 113, 146, 120, 208, 136, 64]

set_option maxRecDepth 8000 in
/-- The second of three keys decrypts a blob, and the first one can be left out; a byte that is no
blob takes one key. -/
theorem second_key_decrypts :
    ((decryptWithAny emptyTextBlob [.text "old", .text "key", .text "new"]).run
        (.cycle [])).result = .ok ⟨2, .ok []⟩ ∧
      (Finds emptyTextBlob [.text "old", .text "key"] (.cycle []) [] ↔
        Finds emptyTextBlob [.text "key"] (.cycle []) []) ∧
      ((decryptWithAny [48] [.text "old", .text "key"]).run (.cycle [])).result =
        .ok ⟨1, .error (.malformed .shorterThanMarker)⟩ := by
  have hold : ((decrypt emptyTextBlob (.text "old")).run (.cycle [])).result =
      .error (.decryptionFailed .chainedBlocks) := by
    rfl
  have hkey : ((decrypt emptyTextBlob (.text "key")).run (.cycle [])).result = .ok [] := by
    rfl
  have hbyte : ((decrypt [48] (.text "old")).run (.cycle [])).result =
      .error (.malformed .shorterThanMarker) := by
    rfl
  obtain ⟨hsearch, hinsert, -⟩ := keys_tried_in_order emptyTextBlob (.cycle [])
  refine ⟨?_, ?_, ?_⟩
  · obtain ⟨search, hresult, horder⟩ := hsearch [.text "old", .text "key", .text "new"]
    rw [hresult, horder.first_success 1 (by decide) [] hkey]
    intro j hj t h
    obtain rfl : j = 0 := Nat.lt_one_iff.mp hj
    cases hold.symm.trans h
  · refine hinsert [] [.text "old"] [.text "key"] [] ?_
    intro key hmem
    rw [List.mem_singleton.mp hmem]
    exact ⟨_, hold, rfl⟩
  · obtain ⟨search, hresult, horder⟩ := (keys_tried_in_order [48] (.cycle [])).1
      [.text "old", .text "key"]
    rw [hresult, horder.form_failure _ _ hbyte (by decide) (List.cons_ne_nil _ _)]

end SealedMetadata.Blob

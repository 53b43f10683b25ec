import SealedMetadata.Account.MasterKeys
import SealedMetadata.Account.PrivateKey
import SealedMetadata.Proofs.Session.Vaulted

/-!
What the reading of a login's fields does to a vault. The text of a field is held in a buffer of
its own, which is empty again in the end, whether the text is of use or not. The results are kept
behind it, and no other buffer is touched.
-/

namespace SealedMetadata

/-- A field is without bytes, or it is there with some. -/
theorem Secret.cases_of_field (field : Option Secret) :
    (∀ f ∈ field, f.content = []) ∨ ∃ f, field = some f ∧ f.isEmpty = false := by
  cases field with
  | none => exact Or.inl fun f hf => by cases hf
  | some f =>
    cases hf : f.isEmpty with
    | true =>
      refine Or.inl ?_
      rintro _ ⟨⟩
      exact isEmpty_iff.mp hf
    | false => exact Or.inr ⟨f, rfl, hf⟩

namespace Vault

/-- Texts in new buffers, one after another. -/
def addTexts (v : Vault) : List String → List Sealed × Vault
  | [] => ([], v)
  | t :: ts =>
    let first := v.add .text (Utf8.encode t)
    let rest := first.2.addTexts ts
    (first.1 :: rest.1, rest.2)

/-- The vault after the text of a field has come and gone. A field without bytes is not read. -/
def withSpent (v : Vault) : Option Secret → Vault
  | none => v
  | some f => if f.isEmpty then v else (v.add .text []).2

theorem withSpent_of_empty (v : Vault) {field : Option Secret} (h : ∀ f ∈ field, f.content = []) :
    v.withSpent field = v := by
  cases field with
  | none => rfl
  | some f => exact if_pos (Secret.isEmpty_iff.mpr (h f rfl))

theorem withSpent_some (v : Vault) {f : Secret} (hf : f.isEmpty = false) :
    v.withSpent (some f) = (v.add .text []).2 :=
  if_neg (Bool.not_eq_true _ ▸ hf)

theorem size_add (v : Vault) (kind : SealedKind) (content : Bytes) :
    (v.add kind content).2.buffers.size = v.buffers.size + 1 := Array.size_push _

/-- What is wiped as soon as it is made is an empty buffer. -/
theorem wipe_add_new (v : Vault) (kind : SealedKind) (content : Bytes) :
    (v.add kind content).2.wipe (v.add kind content).1 = (v.add kind []).2 := by
  refine congrArg Vault.mk (Array.ext' ?_)
  rw [add, Array.toList_setIfInBounds, Array.toList_push, ← Array.length_toList,
    List.set_append_right _ _ (Nat.le_refl _), Nat.sub_self, Array.toList_push]
  rfl

/-- Wiping a value and making another one can be done in either order. -/
theorem add_wipe {v : Vault} {s : Sealed} (hs : s.slot < v.buffers.size) (kind : SealedKind)
    (content : Bytes) : (v.wipe s).add kind content =
      ((v.add kind content).1, (v.add kind content).2.wipe s) := by
  have hsize : (v.wipe s).buffers.size = v.buffers.size := Array.size_setIfInBounds
  refine Prod.ext (congrArg (Sealed.mk kind) hsize) (congrArg Vault.mk (Array.ext' ?_))
  rw [add, wipe, Array.toList_push, Array.toList_setIfInBounds, Array.toList_setIfInBounds,
    Array.toList_push, List.set_append_left _ _ hs]

theorem addTexts_wipe {v : Vault} {s : Sealed} (hs : s.slot < v.buffers.size) (ts : List String) :
    (v.wipe s).addTexts ts = ((v.addTexts ts).1, (v.addTexts ts).2.wipe s) := by
  induction ts generalizing v with
  | nil => rfl
  | cons t ts ih =>
    have hlater : s.slot < (v.add .text (Utf8.encode t)).2.buffers.size := by
      rw [size_add]
      exact Nat.lt_succ_of_lt hs
    rw [addTexts, add_wipe hs, ih hlater]
    rfl

theorem content_addTexts_old (v : Vault) (ts : List String) {s : Sealed}
    (hs : s.slot < v.buffers.size) : (v.addTexts ts).2.content s = v.content s := by
  induction ts generalizing v with
  | nil => rfl
  | cons t ts ih =>
    have hlater : s.slot < (v.add .text (Utf8.encode t)).2.buffers.size := by
      rw [size_add]
      exact Nat.lt_succ_of_lt hs
    exact (ih _ hlater).trans (content_add_old v .text (Utf8.encode t) hs)

/-- Each new buffer has its text. -/
theorem content_addTexts (v : Vault) (ts : List String) :
    (v.addTexts ts).1.map (v.addTexts ts).2.content = ts.map Utf8.encode := by
  induction ts generalizing v with
  | nil => rfl
  | cons t ts ih =>
    have hfirst : ((v.add .text (Utf8.encode t)).2.addTexts ts).2.content
        (v.add .text (Utf8.encode t)).1 = Utf8.encode t := by
      rw [content_addTexts_old _ ts (Nat.lt_of_lt_of_eq (Nat.lt_succ_self _) (size_add ..).symm),
        content_add_new]
    rw [addTexts, List.map_cons, List.map_cons, hfirst, ih]

theorem length_addTexts (v : Vault) (ts : List String) :
    (v.addTexts ts).1.length = ts.length := by
  have h := congrArg List.length (content_addTexts v ts)
  rwa [List.length_map, List.length_map] at h

theorem size_le_slot_addTexts {v : Vault} {ts : List String} {s : Sealed}
    (hs : s ∈ (v.addTexts ts).1) : v.buffers.size ≤ s.slot := by
  induction ts generalizing v with
  | nil => cases hs
  | cons t ts ih =>
    rcases List.mem_cons.mp hs with rfl | hs
    · exact Nat.le_refl _
    · exact Nat.le_trans (Nat.le_of_lt (Nat.lt_of_lt_of_eq (Nat.lt_succ_self _) (size_add ..).symm))
        (ih hs)

theorem kind_addTexts {v : Vault} {ts : List String} {s : Sealed} (hs : s ∈ (v.addTexts ts).1) :
    s.kind = .text := by
  induction ts generalizing v with
  | nil => cases hs
  | cons t ts ih =>
    rcases List.mem_cons.mp hs with rfl | hs
    · rfl
    · exact ih hs

/-- Values with the bytes of texts are read as these texts. -/
theorem mapM_text {v : Vault} {kept : List Sealed} {ts : List String}
    (h : kept.map v.content = ts.map Utf8.encode) :
    (kept.mapM fun k => k.text v : Except Failure (List String)) = .ok ts := by
  induction kept generalizing ts with
  | nil =>
    rw [List.map_nil, eq_comm, List.map_eq_nil_iff] at h
    rw [h]
    rfl
  | cons k kept ih =>
    cases ts with
    | nil => cases h
    | cons t ts =>
      obtain ⟨hfirst, hrest⟩ := List.cons.inj h
      rw [List.mapM_cons, Sealed.text_of_content hfirst, ih hrest]
      rfl

theorem slot_add_lt (v : Vault) (kind : SealedKind) (content : Bytes) :
    (v.add kind content).1.slot < (v.add kind content).2.buffers.size := by
  rw [size_add]
  exact Nat.lt_succ_self v.buffers.size

theorem size_le_withSpent (v : Vault) (field : Option Secret) :
    v.buffers.size ≤ (v.withSpent field).buffers.size := by
  unfold withSpent
  split
  · exact Nat.le_refl _
  · split
    · exact Nat.le_refl _
    · rw [size_add]
      exact Nat.le_succ _

theorem content_withSpent (v : Vault) (field : Option Secret) {s : Sealed}
    (hs : s.slot < v.buffers.size) : (v.withSpent field).content s = v.content s := by
  unfold withSpent
  split
  · rfl
  · split
    · rfl
    · exact content_add_old v .text [] hs

end Vault

namespace Vaulted

/-- Texts that are kept one after another. -/
theorem act_keepTexts (ts : List String) (v : Vault) (r : RandomSource) :
    (ts.mapM fun t => keep .text (Utf8.encode t)).act v r =
      (⟨.ok (v.addTexts ts).1, [], r⟩, (v.addTexts ts).2) := by
  induction ts generalizing v with
  | nil => rfl
  | cons t ts ih =>
    rw [List.mapM_cons, act_bind_of_silent _ (act_keep .text (Utf8.encode t) v r),
      act_bind_of_silent _ (ih (v.add .text (Utf8.encode t)).2)]
    rfl

/-- The buffer of a field's text, when it is empty again. -/
def spend : Option Secret → Vaulted Unit
  | none => return ()
  | some f =>
    if f.isEmpty then return ()
    else do
      let _ ← keep .text []
      return ()

theorem act_spend (field : Option Secret) (v : Vault) (r : RandomSource) :
    (spend field).act v r = (⟨.ok (), [], r⟩, v.withSpent field) := by
  cases field with
  | none => rfl
  | some f =>
    rw [spend, Vault.withSpent]
    split <;> rfl

end Vaulted

/-- The text of a field in a buffer, and what becomes of it. -/
theorem Blob.act_decryptSealed_bind {α : Type} (field key : Secret) (f : Sealed → Vaulted α)
    (v : Vault) (r : RandomSource) :
    (decryptSealed (.ok field) (.ok key) >>= f).act v r =
      match ((decryptText field key).run r).result with
      | .error e => (⟨.error e, ((decryptText field key).run r).events,
          ((decryptText field key).run r).source⟩, v)
      | .ok text =>
        let s := v.add .text (Utf8.encode text)
        let p := (f s.1).act s.2 ((decryptText field key).run r).source
        (⟨p.1.result, ((decryptText field key).run r).events ++ p.1.events, p.1.source⟩, p.2) := by
  rw [decryptSealed_eq, bind_assoc, Vaulted.act_perform_bind]
  cases ((decryptText field key).run r).result <;> rfl

namespace MasterKeys

/-- The buffer of the whole text is empty in the end, with the keys behind it. -/
theorem act_cut (v : Vault) (text : String) (r : RandomSource) :
    let whole := v.add .text (Utf8.encode text)
    let kept := (v.add .text []).2.addTexts (keysIn text)
    (cut whole.1).act whole.2 r =
      (⟨.ok kept.1, [.masterKeysRead (keysIn text).length], r⟩, kept.2) := by
  intro whole kept
  have hread : (Vaulted.inspect fun w => whole.1.text w).act whole.2 r =
      (⟨.ok text, [], r⟩, whole.2) := by
    rw [Vaulted.act_inspect, Sealed.text_of_content (Vault.content_add_new ..)]
  -- to empty the first buffer last is as good as to begin with an empty one
  have hempty : kept = ((whole.2.addTexts (keysIn text)).1,
      (whole.2.addTexts (keysIn text)).2.wipe whole.1) := by
    rw [← Vault.addTexts_wipe (Vault.slot_add_lt ..), Vault.wipe_add_new]
  rw [cut, Vaulted.act_bind_of_silent _ hread,
    Vaulted.act_bind_of_silent _ (Vaulted.act_keepTexts (keysIn text) _ r),
    Vaulted.act_bind_of_silent _ (Vaulted.act_wipe _ _ r), hempty,
    ← Vault.length_addTexts whole.2]
  rfl

/-- A field with bytes: the keys of its text in buffers behind the one that held the text. -/
theorem act_readSealed_some {f : Secret} (hf : f.isEmpty = false) (key : Secret) (v : Vault)
    (r : RandomSource) :
    (readSealed (some f) key).act v r = match ((Blob.decryptText f key).run r).result with
      | .error e => (⟨.error e, ((Blob.decryptText f key).run r).events,
          ((Blob.decryptText f key).run r).source⟩, v)
      | .ok text =>
        let kept := (v.add .text []).2.addTexts (keysIn text)
        (⟨.ok kept.1, ((Blob.decryptText f key).run r).events ++
          [.masterKeysRead (keysIn text).length], ((Blob.decryptText f key).run r).source⟩,
          kept.2) := by
  rw [readSealed, hf, if_neg Bool.false_ne_true, Blob.act_decryptSealed_bind]
  cases ((Blob.decryptText f key).run r).result with
  | error e => rfl
  | ok text =>
    dsimp only
    rw [act_cut]

/-- The plain form of the reading of keys. -/
theorem decrypt_some {f : Secret} (hf : f.isEmpty = false) (key : Secret) :
    decrypt (some f) key = Blob.decryptText f key >>= fun text =>
      Action.log (.masterKeysRead (keysIn text).length) >>= fun _ => pure (keysIn text) := by
  ext1 r
  rw [decrypt, Action.run_bind, Action.run_bind, Vaulted.run_run, Vaulted.left,
    act_readSealed_some hf]
  cases ((Blob.decryptText f key).run r).result with
  | error e => rfl
  | ok text =>
    have htexts :=
      Vault.mapM_text (Vault.content_addTexts (Vault.empty.add .text []).2 (keysIn text))
    dsimp only [Except.map]
    rw [htexts, Action.run_ofExcept, List.append_nil]
    rfl

theorem readSealed_of_empty {field : Option Secret} (h : ∀ f ∈ field, f.content = [])
    (key : Secret) : readSealed field key = pure [] := by
  cases field with
  | none => rfl
  | some f => exact if_pos (Secret.isEmpty_iff.mpr (h f rfl))

theorem decrypt_of_empty {field : Option Secret} (h : ∀ f ∈ field, f.content = [])
    (key : Secret) : decrypt field key = pure [] := by
  rw [decrypt, readSealed_of_empty h]
  rfl

/-- The keys of a field are kept behind the buffer of its text. A failure leaves the vault as it
was. -/
theorem act_readSealed (field : Option Secret) (key : Secret) (v : Vault) (r : RandomSource) :
    (readSealed field key).act v r = match ((decrypt field key).run r).result with
      | .error e => (⟨.error e, ((decrypt field key).run r).events,
          ((decrypt field key).run r).source⟩, v)
      | .ok texts =>
        let kept := (v.withSpent field).addTexts texts
        (⟨.ok kept.1, ((decrypt field key).run r).events, ((decrypt field key).run r).source⟩,
          kept.2) := by
  obtain h | ⟨f, rfl, hf⟩ := Secret.cases_of_field field
  · rw [decrypt_of_empty h, readSealed_of_empty h, Vault.withSpent_of_empty v h]
    rfl
  · rw [Vault.withSpent_some v hf, decrypt_some hf, act_readSealed_some hf, Action.run_bind]
    cases ((Blob.decryptText f key).run r).result <;> rfl

/-- Reading the keys of a field is decrypting it and keeping what comes out. -/
theorem readSealed_eq (field : Option Secret) (key : Secret) :
    readSealed field key = Vaulted.perform (decrypt field key) >>= fun texts =>
      Vaulted.spend field >>= fun _ => texts.mapM fun t => Vaulted.keep .text (Utf8.encode t) := by
  refine Vaulted.ext fun v r => ?_
  rw [act_readSealed, Vaulted.act_perform_bind]
  cases ((decrypt field key).run r).result with
  | error e => rfl
  | ok texts =>
    dsimp only
    rw [Vaulted.act_bind_of_silent _ (Vaulted.act_spend ..), Vaulted.act_keepTexts,
      List.append_nil]

end MasterKeys

namespace PrivateKey

/-- The buffer of the text is empty in the end, also where the text is no base64. -/
theorem act_decode (v : Vault) (text : String) (r : RandomSource) :
    let held := v.add .text (Utf8.encode text)
    let spent := (v.add .text []).2
    (decode held.1).act held.2 r = match ofBase64 (Utf8.encode text) with
      | .error e => (⟨.error e, [], r⟩, spent)
      | .ok b => (⟨.ok (spent.add .bytes b).1, [], r⟩, (spent.add .bytes b).2) := by
  intro held spent
  have hempty : held.2.wipe held.1 = spent := Vault.wipe_add_new ..
  have hwipe (b : Bytes) := Vault.add_wipe (Vault.slot_add_lt v .text (Utf8.encode text)) .bytes b
  have hcontent : held.2.content held.1 = Utf8.encode text := Vault.content_add_new ..
  rw [decode, Vaulted.within, Vaulted.act_ensuring, Vaulted.left, Vaulted.act_inspect_bind,
    hcontent]
  cases ofBase64 (Utf8.encode text) with
  | error e =>
    dsimp only
    rw [hempty]
  | ok b =>
    dsimp only
    rw [← hempty, hwipe]
    rfl

/-- A field with bytes: what its text is the base64 of, in a buffer behind the one that held the
text. -/
theorem act_readSealed_some {f : Secret} (hf : f.isEmpty = false) (key : Secret) (v : Vault)
    (r : RandomSource) :
    (readSealed (some f) key).act v r = match ((Blob.decryptText f key).run r).result with
      | .error e => (⟨.error e, ((Blob.decryptText f key).run r).events,
          ((Blob.decryptText f key).run r).source⟩, v)
      | .ok text =>
        let spent := (v.add .text []).2
        match ofBase64 (Utf8.encode text) with
        | .error e => (⟨.error e, ((Blob.decryptText f key).run r).events,
            ((Blob.decryptText f key).run r).source⟩, spent)
        | .ok b => (⟨.ok (spent.add .bytes b).1, ((Blob.decryptText f key).run r).events,
            ((Blob.decryptText f key).run r).source⟩, (spent.add .bytes b).2) := by
  rw [readSealed, hf, if_neg Bool.false_ne_true, Blob.act_decryptSealed_bind]
  cases ((Blob.decryptText f key).run r).result with
  | error e => rfl
  | ok text =>
    dsimp only
    rw [act_decode]
    cases ofBase64 (Utf8.encode text) <;> simp only [List.append_nil]

/-- The plain form of the reading of a private key. -/
theorem decrypt_some {f : Secret} (hf : f.isEmpty = false) (key : Secret) :
    decrypt (some f) key = Blob.decryptText f key >>= fun text =>
      Action.ofExcept (ofBase64 (Utf8.encode text)) := by
  ext1 r
  rw [decrypt, Action.run_bind, Action.run_bind, Vaulted.run_run, Vaulted.left,
    act_readSealed_some hf]
  cases ((Blob.decryptText f key).run r).result with
  | error e => rfl
  | ok text =>
    dsimp only
    cases ofBase64 (Utf8.encode text) with
    | error e => simp only [Except.map, Action.run_ofExcept, List.append_nil]
    | ok b => simp only [Except.map, Action.run_ofExcept, Action.run_pure, Vault.content_add_new]

theorem readSealed_of_empty {field : Option Secret} (h : ∀ f ∈ field, f.content = [])
    (key : Secret) : readSealed field key = Vaulted.keep .bytes [] := by
  cases field with
  | none => rfl
  | some f => exact if_pos (Secret.isEmpty_iff.mpr (h f rfl))

/-- A field without bytes is not decrypted: there is nothing that the key is asked for. -/
theorem decrypt_of_empty {field : Option Secret} (h : ∀ f ∈ field, f.content = [])
    (key : Secret) : decrypt field key = pure [] := by
  rw [decrypt, readSealed_of_empty h]
  rfl

/-- A field with bytes is read as its text, whose buffer is empty once the base64 is undone. -/
theorem readSealed_some {f : Secret} (hf : f.isEmpty = false) (key : Secret) :
    readSealed (some f) key = Vaulted.perform (Blob.decryptText f key) >>= fun text =>
      Vaulted.keep .text [] >>= fun _ =>
        Vaulted.perform (Action.ofExcept (ofBase64 (Utf8.encode text))) >>= fun b =>
          Vaulted.keep .bytes b := by
  refine Vaulted.ext fun v r => ?_
  rw [act_readSealed_some hf, Vaulted.act_perform_bind]
  cases ((Blob.decryptText f key).run r).result with
  | error e => rfl
  | ok text =>
    dsimp only
    rw [Vaulted.act_bind_of_silent _ (Vaulted.act_keep ..), Vaulted.act_perform_bind,
      Action.run_ofExcept]
    cases ofBase64 (Utf8.encode text) <;> simp only [Vaulted.act_keep, List.append_nil]

/-- A key in a buffer is the key in a plain result, with the same failures. -/
theorem result_readSealed (field : Option Secret) (key : Secret) (v : Vault) (r : RandomSource) :
    (((readSealed field key).run v).run r).result =
      ((decrypt field key).run r).result.map ((v.withSpent field).add .bytes) := by
  obtain h | ⟨f, rfl, hf⟩ := Secret.cases_of_field field
  · rw [decrypt_of_empty h, readSealed_of_empty h, Vault.withSpent_of_empty v h]
    rfl
  · rw [Vault.withSpent_some v hf, decrypt_some hf, Vaulted.run_run, Vaulted.left,
      act_readSealed_some hf, Action.run_bind]
    cases ((Blob.decryptText f key).run r).result with
    | error e => rfl
    | ok text => cases hb : ofBase64 (Utf8.encode text) <;> simp [hb, Except.map]

end PrivateKey

end SealedMetadata

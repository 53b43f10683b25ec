import SealedMetadata.Proofs.Session.Parts
import SealedMetadata.Proofs.Session.Vaulted

/-!
How a vault grows. Operations put new buffers behind the old ones and leave these alone, except
for the four that release a value or credentials.
-/

namespace SealedMetadata

namespace Vault

/-- A vault with the buffers of another one, and perhaps more behind them. -/
def Grown (v w : Vault) : Prop := v.buffers.toList <+: w.buffers.toList

theorem Grown.refl (v : Vault) : v.Grown v := List.prefix_refl _

theorem Grown.trans {u v w : Vault} (h : u.Grown v) (h' : v.Grown w) : u.Grown w :=
  List.IsPrefix.trans h h'

theorem grown_add (v : Vault) (kind : SealedKind) (content : Bytes) :
    v.Grown (v.add kind content).2 := by
  rw [Grown, add, Array.toList_push]
  exact List.prefix_append _ _

theorem Grown.size_le {v w : Vault} (h : v.Grown w) : v.buffers.size ≤ w.buffers.size := by
  rw [← Array.length_toList, ← Array.length_toList]
  exact h.length_le

theorem content_eq_getElem? (v : Vault) (s : Sealed) :
    v.content s = (v.buffers.toList[s.slot]?).getD [] := by
  rw [content, Array.getD_eq_getD_getElem?, Array.getElem?_toList]

/-- Old buffers keep their contents while a vault grows. -/
theorem Grown.content_eq {v w : Vault} (h : v.Grown w) {s : Sealed}
    (hs : s.slot < v.buffers.size) : w.content s = v.content s := by
  obtain ⟨added, hw⟩ := h
  rw [← Array.length_toList] at hs
  rw [content_eq_getElem?, content_eq_getElem?, ← hw, List.getElem?_append_left hs]

@[simp] theorem size_wipe (v : Vault) (s : Sealed) :
    (v.wipe s).buffers.size = v.buffers.size := by
  rw [wipe, Array.size_setIfInBounds]

/-- The vault with the buffers of several values emptied. -/
def wipeAll (v : Vault) (released : List Sealed) : Vault := released.foldl wipe v

theorem size_wipeAll (v : Vault) (released : List Sealed) :
    (v.wipeAll released).buffers.size = v.buffers.size := by
  induction released generalizing v with
  | nil => rfl
  | cons s released ih => exact (ih (v.wipe s)).trans (size_wipe v s)

/-- Emptying several buffers leaves all others as they were. -/
theorem content_wipeAll (v : Vault) (released : List Sealed) (t : Sealed) :
    (v.wipeAll released).content t =
      if ∃ s ∈ released, s.slot = t.slot then [] else v.content t := by
  induction released generalizing v with
  | nil => simp [wipeAll]
  | cons s released ih =>
    have hstep : (v.wipeAll (s :: released)).content t = ((v.wipe s).wipeAll released).content t :=
      rfl
    rw [hstep, ih, content_wipe]
    by_cases hrest : ∃ k ∈ released, k.slot = t.slot
    · rw [if_pos hrest, if_pos]
      obtain ⟨k, hk, hslot⟩ := hrest
      exact ⟨k, List.mem_cons_of_mem _ hk, hslot⟩
    · rw [if_neg hrest]
      by_cases hfirst : t.slot = s.slot
      · rw [if_pos hfirst, if_pos ⟨s, List.mem_cons_self, hfirst.symm⟩]
      · rw [if_neg hfirst, if_neg]
        rintro ⟨k, hk, hslot⟩
        rcases List.mem_cons.mp hk with rfl | hk
        · exact hfirst hslot.symm
        · exact hrest ⟨k, hk, hslot⟩

end Vault

namespace Vaulted

variable {α β : Type}

/-- An operation that puts new buffers behind the old ones and does no more, whether it succeeds or
fails. -/
def OnlyAdds (α : Type) (x : Vaulted α) : Prop :=
  ∀ (v : Vault) (r : RandomSource), v.Grown (x.left v r)

theorem left_bind (x : Vaulted α) (f : α → Vaulted β) (v : Vault) (r : RandomSource) :
    (x >>= f).left v r = match (x.act v r).1.result with
      | .error _ => x.left v r
      | .ok a => (f a).left (x.left v r) (x.act v r).1.source := by
  rw [left, act_bind]
  cases (x.act v r).1.result <;> rfl

theorem result_act_bind (x : Vaulted α) (f : α → Vaulted β) (v : Vault) (r : RandomSource) :
    ((x >>= f).act v r).1.result = match (x.act v r).1.result with
      | .error e => .error e
      | .ok a => ((f a).act (x.left v r) (x.act v r).1.source).1.result := by
  rw [act_bind]
  cases (x.act v r).1.result <;> rfl

theorem result_run_of_ok {x : Vaulted α} {v : Vault} {r : RandomSource} {a : α}
    (h : (x.act v r).1.result = .ok a) : ((x.run v).run r).result = .ok (a, x.left v r) := by
  rw [run_run, h]
  rfl

theorem result_of_run_ok {x : Vaulted α} {v w : Vault} {r : RandomSource} {a : α}
    (h : ((x.run v).run r).result = .ok (a, w)) : (x.act v r).1.result = .ok a := by
  rw [run_run] at h
  cases hresult : (x.act v r).1.result with
  | error e =>
    rw [hresult] at h
    cases h
  | ok b =>
    rw [hresult] at h
    cases h
    rfl

/-- Where an operation succeeds, its result comes with the vault that it leaves. -/
theorem left_of_run_ok {x : Vaulted α} {v w : Vault} {r : RandomSource} {a : α}
    (h : ((x.run v).run r).result = .ok (a, w)) : x.left v r = w := by
  rw [run_run] at h
  cases hresult : (x.act v r).1.result with
  | error e =>
    rw [hresult] at h
    cases h
  | ok b =>
    rw [hresult] at h
    cases h
    rfl

theorem eq_of_inspect_ok {f : Vault → Except Failure α} {v w : Vault} {r : RandomSource} {a : α}
    (h : (((inspect f).run v).run r).result = .ok (a, w)) : f v = .ok a ∧ w = v := by
  cases hf : f v with
  | error e =>
    have hrun := run_inspect_bind_of_error hf (fun b => (pure b : Vaulted α)) r
    rw [bind_pure] at hrun
    rw [hrun] at h
    cases h
  | ok b =>
    rw [run_inspect hf] at h
    cases h
    exact ⟨rfl, rfl⟩

instance (x : Action α) : Has OnlyAdds (perform x) := ⟨fun v _ => Vault.Grown.refl v⟩

instance : Compositional OnlyAdds where
  pure a v r := Vault.Grown.refl v
  bind {α β x f} hx hf v r := by
    rw [left_bind]
    split
    · exact hx v r
    · exact (hx v r).trans (hf _ _ _)
  get v r := Vault.Grown.refl v
  quiet x _ := (inferInstance : Has OnlyAdds (perform x)).holds
  keep kind content v r := Vault.grown_add v kind content

/-- An operation that only adds grows the vault that comes with its result. -/
theorem Has.grown {x : Vaulted α} [hx : Has OnlyAdds x] {v w : Vault} {r : RandomSource} {a : α}
    (h : ((x.run v).run r).result = .ok (a, w)) : v.Grown w := by
  rw [← left_of_run_ok h]
  exact hx.holds v r

end Vaulted

open Vaulted (Has has_bind OnlyAdds)

instance (apiKey uuid : Value) (button : DownloadButton) (expiration : Expiration)
    (password : Option Secret) :
    Has OnlyAdds (LinkEdit.new apiKey uuid button expiration password) := by
  unfold LinkEdit.new
  infer_instance

instance (apiKey keyMetadata metadata parent : Value) (linkType : ItemKind) (uuid linkUuid : Value)
    (button : DownloadButton) (expiration : Expiration) :
    Has OnlyAdds (LinkAdd.ofParts apiKey keyMetadata metadata parent linkType uuid linkUuid button
      expiration) := by
  unfold LinkAdd.ofParts
  cases linkUuid <;> infer_instance

instance (apiKey uuid metadata parent : Value) (linkType : ItemKind) (masterKey : Secret)
    (linkKey : Option Secret) (version : Option RequestedVersion) :
    Has OnlyAdds (LinkAdd.new apiKey uuid metadata parent linkType masterKey linkKey version) := by
  unfold LinkAdd.new
  infer_instance

namespace Session

variable (names : Names)

instance (o : KeyOperation) : Has OnlyAdds (o.run names) := by
  cases o <;> (unfold KeyOperation.run; infer_instance)

instance (o : BlobOperation) : Has OnlyAdds (o.run names) := by
  cases o <;> (unfold BlobOperation.run; infer_instance)

instance (o : ModelOperation) : Has OnlyAdds (o.run names) := by
  cases o with
  | deriveCredentials _ _ | responseMasterKeys _ _ | responsePrivateKey _ _ | hasPassword _
  | readLinkKey _ _ => infer_instance
  | newLinkAdd _ _ _ _ _ _ _ _ | linkAddOf _ _ _ _ _ _ _ _ _ =>
    unfold ModelOperation.run
    -- too many arguments for one search
    exact has_bind fun _ => has_bind fun _ => has_bind fun _ => has_bind fun _ => inferInstance
  | _ =>
    unfold ModelOperation.run
    infer_instance

/-- Questions to a value only read it, but for the two that release it. -/
theorem SecretQuery.onlyAdds {query : SecretQuery} (hwipe : query ≠ .wipe) (hscope : query ≠ .scope)
    (value : Arg) : Has OnlyAdds (query.run names value) := by
  unfold run
  refine has_bind fun o => ?_
  split
  case h_2 | h_3 => exact absurd rfl hwipe
  case h_4 => exact absurd rfl hscope
  all_goals infer_instance

end Session

end SealedMetadata

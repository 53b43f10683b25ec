import SealedMetadata.Session.Reply
import SealedMetadata.Session.SecretOperations

/-!
Operations that succeed: each of their steps did. A text that is kept as a sealed value can be
revealed.
-/

namespace SealedMetadata

namespace Vaulted

variable {α β : Type}

/-- One operation after another succeeds only if both do, the second one where the first ends. -/
theorem exists_of_bind_ok {x : Vaulted α} {f : α → Vaulted β} {v : Vault} {r : RandomSource}
    {p : β × Vault} (h : (((x >>= f).run v).run r).result = .ok p) :
    ∃ a v₁ r₁, ((x.run v).run r).result = .ok (a, v₁) ∧
      (((f a).run v₁).run r₁).result = .ok p := by
  rw [run_bind, Action.result_bind] at h
  split at h
  · cases h
  · exact ⟨_, _, _, by assumption, h⟩

theorem result_bind_of_ok {x : Vaulted α} (f : α → Vaulted β) {v v' : Vault} {r : RandomSource}
    {a : α} (h : ((x.run v).run r).result = .ok (a, v')) :
    (((x >>= f).run v).run r).result = (((f a).run v').run ((x.run v).run r).source).result := by
  rw [run_bind, Action.result_bind, h]

/-- One operation after another goes on where the first one ends, if that succeeds silently. -/
theorem run_bind_of_silent {x : Vaulted α} (f : α → Vaulted β) {v v' : Vault}
    {r r' : RandomSource} {a : α} (h : (x.run v).run r = ⟨.ok (a, v'), [], r'⟩) :
    ((x >>= f).run v).run r = ((f a).run v').run r' := by
  rw [run_bind, Action.run_bind, h]
  rfl

theorem run_bind_of_pure {x : Vaulted α} (f : α → Vaulted β) {v w : Vault} {a : α}
    (h : x.run v = pure (a, w)) : (x >>= f).run v = (f a).run w := by
  rw [run_bind, h, pure_bind]

theorem run_perform_bind (x : Action α) (f : α → Vaulted β) (v : Vault) :
    (perform x >>= f).run v = x >>= fun a => (f a).run v := by
  rw [run_bind, run_perform, bind_assoc]
  rfl

theorem run_keep_bind (kind : SealedKind) (content : Bytes) (f : Sealed → Vaulted β) (v : Vault) :
    (keep kind content >>= f).run v = (f (v.add kind content).1).run (v.add kind content).2 := rfl

theorem run_inspect_eq (g : Vault → Except Failure α) (v : Vault) :
    (inspect g).run v = Action.ofExcept (g v) >>= fun a => pure (a, v) := by
  ext1 r
  rw [run_run, left, act_inspect]
  cases g v <;> rfl

theorem run_inspect_bind (g : Vault → Except Failure α) (f : α → Vaulted β) (v : Vault) :
    (inspect g >>= f).run v = Action.ofExcept (g v) >>= fun a => (f a).run v := by
  rw [run_bind, run_inspect_eq, bind_assoc]
  rfl

/-- An action that succeeds goes on in the same vault. -/
theorem result_perform_bind {x : Action α} (f : α → Vaulted β) {v : Vault} {r : RandomSource}
    {a : α} (h : (x.run r).result = .ok a) :
    (((perform x >>= f).run v).run r).result = (((f a).run v).run (x.run r).source).result := by
  rw [run_perform_bind, Action.result_bind, h]

theorem run_inspect {f : Vault → Except Failure α} {v : Vault} {a : α} (h : f v = .ok a)
    (r : RandomSource) : ((inspect f).run v).run r = ⟨.ok (a, v), [], r⟩ := by
  rw [run_inspect_eq, h]
  rfl

theorem run_inspect_of_error {f : Vault → Except Failure α} {v : Vault} {e : Failure}
    (h : f v = .error e) (r : RandomSource) : ((inspect f).run v).run r = ⟨.error e, [], r⟩ := by
  rw [run_inspect_eq, h]
  rfl

theorem run_inspect_bind_of_error {f : Vault → Except Failure α} {v : Vault} {e : Failure}
    (h : f v = .error e) (g : α → Vaulted β) (r : RandomSource) :
    ((inspect f >>= g).run v).run r = ⟨.error e, [], r⟩ := by
  rw [run_bind, Action.run_bind, run_inspect_of_error h]

/-- What one value kept does to the vault: it has the next buffer, and the others stay. -/
theorem exists_kept (kind : SealedKind) (content : Bytes) (v : Vault) (r : RandomSource) :
    ∃ s v', ((keep kind content).run v).run r = ⟨.ok (s, v'), [], r⟩ ∧
      s.kind = kind ∧ v'.content s = content ∧
      s.slot = v.buffers.size ∧ v'.buffers.size = v.buffers.size + 1 ∧
      ∀ t : Sealed, t.slot < v.buffers.size → v'.content t = v.content t := by
  refine ⟨_, _, rfl, rfl, Vault.content_add_new v kind content, rfl, Array.size_push _, ?_⟩
  intro t ht
  exact Vault.content_add_old v kind content ht

end Vaulted

namespace Session

/-- A kept text is a sealed text, and revealing it gives the text back. -/
theorem reveal_of_keepText {t : String} {v v' : Vault} {r : RandomSource} {reply : Reply}
    (h : (((Reply.keepText t).run v).run r).result = .ok (reply, v')) :
    ∃ s, reply = .ofValue (.sealed s) ∧ s.kind = .text ∧ v'.content s = Utf8.encode t ∧
      SecretQuery.answer v' (.sealed s) .reveal = .ok (.text t) := by
  cases h
  have hcontent := Vault.content_add_new v .text (Utf8.encode t)
  have htext : (v.add .text (Utf8.encode t)).1.text (v.add .text (Utf8.encode t)).2 = .ok t :=
    Sealed.text_of_content hcontent
  refine ⟨_, rfl, rfl, hcontent, ?_⟩
  change ((v.add .text (Utf8.encode t)).1.text (v.add .text (Utf8.encode t)).2).map Value.text = _
  rw [htext]
  rfl

end Session

end SealedMetadata

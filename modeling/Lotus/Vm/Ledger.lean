import Lotus.Lib.Total
import Lotus.Vm.Runtime

/-!
# What execution may do to the ledger

An abstract model of the effects of a message: a ledger of actors, and the ways in which running
actor code may change it, with the events that are recorded on the way.
-/

namespace Lotus

open Total List Function

abbrev Ledger := Address → Option Actor

def Event.IsNote : Event → Prop
  | charged _ | fatal | newAddress _ _ _ | mark _ => True
  | created _ | registered _ _ _ | deleted _ | round _ => False

def Event.overwrites : Event → Bool
  | registered _ _ fresh => !fresh
  | charged _ | created _ | deleted _ | fatal | newAddress _ _ _ | mark _ | round _ => false

inductive Run : Ledger → List Event → Ledger → Prop where
  | refl (v : Ledger) : Run v [] v
  | trans {v1 v2 v3 : Ledger} {es1 es2 : List Event} :
      Run v1 es1 v2 → Run v2 es2 v3 → Run v1 (es1 ++ es2) v3
  /-- an event without effect -/
  | note (v : Ledger) {e : Event} : e.IsNote → Run v [e] v
  /-- a new state of an actor -/
  | touch {v : Ledger} {a : Address} {act : Actor} (head : Cid) :
      v a = some act → Run v [] (update v a (some { act with head := head }))
  /-- a transfer between two actors that the payer can cover -/
  | transfer {v : Ledger} {a b : Address} {f t : Actor} {amt : ℤ} :
      a ≠ b → v a = some f → v b = some t → 0 ≤ amt → amt ≤ f.balance →
      Run v []
        (update (update v a (some { f with balance := f.balance - amt })) b
          (some { t with balance := t.balance + amt }))
  /-- an actor where there was none -/
  | create {v : Ledger} {a : Address} (code head : Cid) :
      v a = none → Run v [.created a] (update v a (some ⟨code, head, 0, 0⟩))
  /-- an account at the ID that the init actor assigned, over whatever was there -/
  | register (v : Ledger) (addr id : Address) (code head : Cid) :
      Run v [.registered addr id (v id).isNone] (update v id (some ⟨code, head, 0, 0⟩))
  /-- the deletion of an actor without balance, or of the burnt-funds actor -/
  | delete {v : Ledger} {a : Address} {act : Actor} :
      v a = some act → act.balance = 0 ∨ a = burntFundsActorAddr →
      Run v [.deleted a] (update v a none)
  /-- a run that is undone -/
  | revert {v v' : Ledger} {es : List Event} : Run v es v' → Run v es v

namespace Run

variable {v v' : Ledger} {es : List Event}

/-- A run on a finite ledger ends on a finite one. -/
lemma finite (h : Run v es v') (hv : {a | v a ≠ none}.Finite) : {a | v' a ≠ none}.Finite := by
  induction h with
  | refl => exact hv
  | trans _ _ ih1 ih2 => exact ih2 (ih1 hv)
  | note => exact hv
  | touch => exact finite_update hv _ _
  | transfer => exact finite_update (finite_update hv _ _) _ _
  | create => exact finite_update hv _ _
  | register => exact finite_update hv _ _
  | delete => exact finite_update hv _ _
  | revert => exact hv

/-! ## Balances -/

noncomputable def supply (v : Ledger) : ℤ := total Actor.balance v

def FreshIDs (es : List Event) : Prop := ∀ e ∈ es, e.overwrites = false
deriving Decidable

lemma FreshIDs.left {es1 es2 : List Event} (h : FreshIDs (es1 ++ es2)) : FreshIDs es1 :=
  fun e hmem => h e (mem_append_left _ hmem)

lemma FreshIDs.right {es1 es2 : List Event} (h : FreshIDs (es1 ++ es2)) : FreshIDs es2 :=
  fun e hmem => h e (mem_append_right _ hmem)

lemma FreshIDs.isNone {addr id : Address} {v : Ledger}
    (h : FreshIDs [.registered addr id (v id).isNone]) : v id = none := by
  have hnone := h _ (mem_singleton_self _)
  simpa [Event.overwrites] using hnone

/-- A run conserves the supply, unless it registers an account over an actor or deletes the
burnt-funds actor. -/
lemma supply_eq (h : Run v es v') (hv : {a | v a ≠ none}.Finite) (hfresh : FreshIDs es)
    (hburnt : .deleted burntFundsActorAddr ∉ es) : supply v' = supply v := by
  induction h with
  | refl => rfl
  | trans h1 _ ih1 ih2 => simp_all [mem_append, not_or, h1.finite, hfresh.right, hfresh.left]
  | note => rfl
  | touch head hact =>
    rw [supply, supply, total_update _ hv, hact]
    simp
  | @transfer v a b f t amt hne hf ht _ _ =>
    have hb : update v a (some { f with balance := f.balance - amt }) b = some t := by
      rw [update_of_ne hne.symm, ht]
    rw [supply, supply, total_update _ (finite_update hv _ _), total_update _ hv, hb, hf]
    simp only [Option.elim_some]
    omega
  | create code head hnone =>
    rw [supply, supply, total_update _ hv, hnone]
    simp
  | register v addr id code head =>
    rw [supply, supply, total_update _ hv, hfresh.isNone]
    simp
  | @delete v a act hact hzero =>
    have hbalance : act.balance = 0 := by grind
    rw [supply, supply, total_update _ hv, hact]
    simp [hbalance]
  | revert => rfl

def Solvent (v : Ledger) : Prop := ∀ a act, v a = some act → 0 ≤ act.balance

lemma Solvent.update (hv : Solvent v) {a : Address} {act : Actor} (h : 0 ≤ act.balance) :
    Solvent (update v a (some act)) := by
  intro b act' hb
  by_cases hba : b = a
  · grind
  · rw [update_of_ne hba] at hb
    exact hv b act' hb

/-- A run makes no balance negative. -/
lemma solvent (h : Run v es v') (hv : Solvent v) : Solvent v' := by
  induction h with
  | refl => exact hv
  | trans _ _ ih1 ih2 => exact ih2 (ih1 hv)
  | note => exact hv
  | @touch v a act head hact =>
    have hpos : 0 ≤ act.balance := hv a act hact
    exact hv.update hpos
  | transfer _ hf ht hamt hle =>
    have hpayee := hv _ _ ht
    exact (hv.update (by simp only; omega)).update (by simp only; omega)
  | create => exact hv.update le_rfl
  | register => exact hv.update le_rfl
  | @delete v a act _ _ =>
    intro b act' hb
    by_cases hba : b = a
    · grind
    · rw [update_of_ne hba] at hb
      exact hv b act' hb
  | revert => exact hv

lemma isSome (h : Run v es v') {a : Address} (ha : (v a).isSome) (hdel : .deleted a ∉ es) :
    (v' a).isSome := by
  induction h with
  | refl => exact ha
  | trans _ _ ih1 ih2 => grind
  | note => exact ha
  | touch | create | register => grind
  | transfer => grind
  | @delete v b act _ _ => grind
  | revert => exact ha

lemma nonce_eq (h : Run v es v') {a : Address} {act : Actor} (ha : v a = some act)
    (hdel : .deleted a ∉ es) (hfresh : FreshIDs es) :
    ∃ act', v' a = some act' ∧ act'.nonce = act.nonce ∧ act'.code = act.code := by
  induction h generalizing act with
  | refl => exact ⟨act, ha, rfl, rfl⟩
  | trans _ _ ih1 ih2 =>
    rw [mem_append, not_or] at hdel
    grind [hfresh.left, hfresh.right]
  | note => exact ⟨act, ha, rfl, rfl⟩
  | @touch v b actb head hb => grind
  | @transfer v b c f t amt hne hf ht _ _ => grind
  | @create v b code head hnone => grind
  | register v addr id code head => grind [hfresh.isNone, update_of_ne]
  | @delete v b actb _ _ => grind
  | revert => exact ⟨act, ha, rfl, rfl⟩

end Run

end Lotus

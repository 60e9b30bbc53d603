import Lotus.Lib.Check
import Lotus.Chain.Block

/-!
# Diffs of arrays and maps in actor states

`chain/events/state/diff_adt.go` and the two watchers of deal states in `predicates.go`.
-/

namespace Lotus

open List

variable {K V : Type} [DecidableEq K]

/-- A call to an `AdtArrayDiff` or `AdtMapDiff`. -/
inductive AdtChange (K V : Type) where
  | add (key : K) (val : V)
  | modify (key : K) (old new : V)
  | remove (key : K) (val : V)
deriving DecidableEq

namespace AdtChange

def key : AdtChange K V → K
  | add k _ | modify k .. | remove k _ => k

def result : AdtChange K V → Option V
  | add _ v | modify _ _ v => some v
  | remove .. => none

def Between (pre cur : AList fun _ : K => V) : AdtChange K V → Prop
  | add k v => pre.lookup k = none ∧ cur.lookup k = some v
  | modify k old new => pre.lookup k = some old ∧ cur.lookup k = some new
  | remove k v => pre.lookup k = some v ∧ cur.lookup k = none

def apply (s : AList fun _ : K => V) (c : AdtChange K V) : AList fun _ : K => V :=
  match c.result with
  | some v => s.insert c.key v
  | none => s.erase c.key

end AdtChange

/-- The interface that a diff reports to, with its key as the store has it, and the accesses to the
second collection, which can fail. -/
structure AdtDiff (K V : Type) where
  asKey : K → Except NodeErr K
  call : AdtChange K V → Except NodeErr Unit
  get : K → Except NodeErr Unit
  delete : K → Except NodeErr Unit

variable (out : AdtDiff K V)

def diffLoop : List (Σ _ : K, V) → AList (fun _ : K => V) →
    Except NodeErr (List (AdtChange K V) × AList fun _ : K => V)
  | [], cur => .ok ([], cur)
  | ⟨key, prevVal⟩ :: rest, cur => do
    let k ← out.asKey key
    out.get k
    match cur.lookup k with
    | none =>
      out.call (.remove key prevVal)
      let (calls, left) ← diffLoop rest cur
      return (.remove key prevVal :: calls, left)
    | some curVal =>
      out.call (.modify key prevVal curVal)
      out.delete k
      let (calls, left) ← diffLoop rest (cur.erase k)
      return (.modify key prevVal curVal :: calls, left)

/-- The call for an entry that is left of the second collection. -/
def addedChange (e : Σ _ : K, V) : AdtChange K V := .add e.1 e.2

def diffAdtMap (pre cur : AList fun _ : K => V) : Except NodeErr (List (AdtChange K V)) := do
  let (calls, left) ← diffLoop out pre.entries cur
  (left.entries.map addedChange).forM out.call
  return calls ++ left.entries.map addedChange

def diffAdtArray (out : AdtDiff UInt64 V) (pre cur : AList fun _ : UInt64 => V) :
    Except NodeErr (List (AdtChange UInt64 V)) :=
  diffAdtMap { out with asKey := .ok } pre cur

/-! ## The diff is exact -/

def entryChange (cur : AList fun _ : K => V) (e : Σ _ : K, V) : AdtChange K V :=
  match cur.lookup e.1 with
  | none => .remove e.1 e.2
  | some v => .modify e.1 e.2 v

lemma entryChange_key (cur : AList fun _ : K => V) (e : Σ _ : K, V) :
    (entryChange cur e).key = e.1 := by
  unfold entryChange
  split <;> rfl

variable {out} {pre cur left : AList fun _ : K => V} {calls : List (AdtChange K V)}

-- The induction is on the entries of the first collection. A key that is deleted from the second
-- one does not come again.
lemma diffLoop_eq_ok (hkey : ∀ {k k'}, out.asKey k = .ok k' → k' = k) {l : List (Σ _ : K, V)}
    (hnodup : l.NodupKeys) (h : diffLoop out l cur = .ok (calls, left)) :
    calls = l.map (entryChange cur) ∧
      ∀ k, left.lookup k = if k ∈ l.keys then none else cur.lookup k := by
  induction l generalizing cur calls with
  | nil =>
    cases h
    exact ⟨rfl, fun k => (if_neg (by simp)).symm⟩
  | cons e l ih =>
    obtain ⟨key, prevVal⟩ := e
    obtain ⟨hnot, hrest'⟩ := nodupKeys_cons.mp hnodup
    rw [diffLoop] at h
    obtain ⟨k, hk, h⟩ := Check.bind_eq_ok.mp h
    obtain rfl := hkey hk
    obtain ⟨-, -, h⟩ := Check.bind_eq_ok.mp h
    rcases hfound : cur.lookup k with - | curVal
    · rw [hfound] at h
      obtain ⟨-, -, h⟩ := Check.bind_eq_ok.mp h
      obtain ⟨⟨calls', left'⟩, hrest, h⟩ := Check.bind_eq_ok.mp h
      cases h
      obtain ⟨rfl, hleft⟩ := ih hrest' hrest
      refine ⟨by simp [entryChange, hfound], fun k' => ?_⟩
      rw [hleft, keys_cons]
      by_cases hk' : k' = k
      · subst hk'
        simp [hfound]
      · simp [hk']
    · rw [hfound] at h
      obtain ⟨-, -, h⟩ := Check.bind_eq_ok.mp h
      obtain ⟨-, -, h⟩ := Check.bind_eq_ok.mp h
      obtain ⟨⟨calls', left'⟩, hrest, h⟩ := Check.bind_eq_ok.mp h
      cases h
      obtain ⟨rfl, hleft⟩ := ih hrest' hrest
      constructor
      · have hsame : ∀ e ∈ l, entryChange (cur.erase k) e = entryChange cur e := by
          intro e he
          have hne : e.1 ≠ k := by
            rintro rfl
            have hmem : e.1 ∈ l.keys := mem_keys_of_mem he
            exact hnot hmem
          rw [entryChange, AList.lookup_erase_ne hne, entryChange]
        rw [map_cons, map_congr_left hsame]
        simp [entryChange, hfound]
      · intro k'
        rw [hleft, keys_cons]
        by_cases hk' : k' = k
        · subst hk'
          simp
        · simp [hk', AList.lookup_erase_ne hk']

lemma lookup_foldl_apply {cs : List (AdtChange K V)} (hnodup : (cs.map AdtChange.key).Nodup)
    (s : AList fun _ : K => V) :
    (∀ c ∈ cs, (cs.foldl AdtChange.apply s).lookup c.key = c.result) ∧
      ∀ k, k ∉ cs.map AdtChange.key → (cs.foldl AdtChange.apply s).lookup k = s.lookup k := by
  induction cs generalizing s with
  | nil => exact ⟨fun c hc => absurd hc not_mem_nil, fun _ _ => rfl⟩
  | cons c cs ih =>
    obtain ⟨hnot, hnodup⟩ := nodup_cons.mp hnodup
    obtain ⟨hmem, hother⟩ := ih hnodup (c.apply s)
    refine ⟨fun c' hc' => ?_, fun k hk => ?_⟩
    · rcases mem_cons.mp hc' with rfl | hc'
      · rw [foldl_cons, hother _ hnot, AdtChange.apply]
        split <;> simp [*]
      · exact hmem c' hc'
    · rw [map_cons, mem_cons, not_or] at hk
      rw [foldl_cons, hother k hk.2, AdtChange.apply]
      split
      · exact AList.lookup_insert_ne hk.1
      · exact AList.lookup_erase_ne hk.1

structure ExactDiff (pre cur : AList fun _ : K => V) (calls : List (AdtChange K V)) : Prop where
  once : (calls.map AdtChange.key).Nodup
  mem_iff : ∀ c, c ∈ calls ↔ c.Between pre cur
  applied : ∀ k, (calls.foldl AdtChange.apply pre).lookup k = cur.lookup k

lemma AdtChange.Between.result_eq {c : AdtChange K V} (h : c.Between pre cur) :
    cur.lookup c.key = c.result := by
  cases c with
  | add k v | modify k old new | remove k v => exact h.2

lemma mem_map_entryChange {c : AdtChange K V} :
    c ∈ pre.entries.map (entryChange cur) ↔ c.Between pre cur ∧ pre.lookup c.key ≠ none := by
  constructor
  · intro h
    obtain ⟨⟨k, v⟩, he, rfl⟩ := mem_map.mp h
    have hpre : pre.lookup k = some v := AList.mem_lookup_iff.mpr he
    unfold entryChange
    dsimp only
    split <;> simp [AdtChange.Between, AdtChange.key, *]
  · rintro ⟨hbetween, hsome⟩
    cases c with
    | add k v => exact absurd hbetween.1 hsome
    | modify k old new =>
      exact mem_map.mpr ⟨⟨k, old⟩, AList.mem_lookup_iff.mp hbetween.1, by
        simp [entryChange, hbetween.2]⟩
    | remove k v =>
      exact mem_map.mpr ⟨⟨k, v⟩, AList.mem_lookup_iff.mp hbetween.1, by
        simp [entryChange, hbetween.2]⟩

lemma mem_map_add (hleft : ∀ k, left.lookup k = if k ∈ pre.keys then none else cur.lookup k)
    {c : AdtChange K V} : c ∈ left.entries.map addedChange ↔
      c.Between pre cur ∧ pre.lookup c.key = none := by
  have hadd (k : K) (v : V) :
      left.lookup k = some v ↔ pre.lookup k = none ∧ cur.lookup k = some v := by
    rw [hleft, AList.lookup_eq_none, AList.mem_keys]
    split_ifs with hk <;> simp [hk]
  constructor
  · intro h
    obtain ⟨⟨k, v⟩, he, rfl⟩ := mem_map.mp h
    have hpair := (hadd k v).mp (AList.mem_lookup_iff.mpr he)
    exact ⟨hpair, hpair.1⟩
  · rintro ⟨hbetween, hnone⟩
    cases c with
    | add k v =>
      exact mem_map.mpr ⟨⟨k, v⟩, AList.mem_lookup_iff.mp ((hadd k v).mpr hbetween), rfl⟩
    | modify k old new | remove k v => cases hbetween.1.symm.trans hnone

lemma diffAdtMap_exact (hkey : ∀ {k k'}, out.asKey k = .ok k' → k' = k)
    (h : diffAdtMap out pre cur = .ok calls) : ExactDiff pre cur calls := by
  obtain ⟨⟨cs, left⟩, hloop, h⟩ := Check.bind_eq_ok.mp h
  obtain ⟨-, -, h⟩ := Check.bind_eq_ok.mp h
  cases h
  obtain ⟨rfl, hleft⟩ := diffLoop_eq_ok hkey pre.nodupKeys hloop
  have hmem (c : AdtChange K V) : c ∈ pre.entries.map (entryChange cur) ++
      left.entries.map addedChange ↔ c.Between pre cur := by
    rw [mem_append, mem_map_entryChange, mem_map_add hleft]
    tauto
  have honce : ((pre.entries.map (entryChange cur) ++
      left.entries.map addedChange).map AdtChange.key).Nodup := by
    have hpre : (pre.entries.map (entryChange cur)).map AdtChange.key = pre.keys := by
      rw [map_map]
      exact map_congr_left fun e _ => entryChange_key cur e
    have hadded : (left.entries.map addedChange).map AdtChange.key = left.keys := map_map ..
    rw [map_append, hpre, hadded]
    refine nodup_append.mpr ⟨pre.keys_nodup, left.keys_nodup, ?_⟩
    intro k hk k' hk' heq
    subst heq
    have hnone : left.lookup k = none := (hleft k).trans (if_pos hk)
    exact AList.lookup_eq_none.mp hnone (AList.mem_keys.mpr hk')
  refine ⟨honce, hmem, fun k => ?_⟩
  obtain ⟨hchanged, hother⟩ := lookup_foldl_apply honce pre
  by_cases hk : k ∈ (pre.entries.map (entryChange cur) ++
      left.entries.map addedChange).map AdtChange.key
  · obtain ⟨c, hc, rfl⟩ := mem_map.mp hk
    rw [hchanged c hc, ((hmem c).mp hc).result_eq]
  · have hno (c : AdtChange K V) (hc : c.Between pre cur) : c.key ≠ k := by
      rintro rfl
      exact hk (mem_map_of_mem ((hmem c).mpr hc))
    rw [hother k hk]
    rcases hpre : pre.lookup k with - | v <;> rcases hcur : cur.lookup k with - | w
    · rfl
    · exact absurd rfl (hno (.add k w) ⟨hpre, hcur⟩)
    · exact absurd rfl (hno (.remove k v) ⟨hpre, hcur⟩)
    · exact absurd rfl (hno (.modify k v w) ⟨hpre, hcur⟩)

/-- A diff that comes back without an error is exact, for maps whose keys are read back as they are
stored and for arrays. -/
theorem diffAdt_exact (hkey : ∀ {k k'}, out.asKey k = .ok k' → k' = k) :
    (∀ pre cur calls, diffAdtMap out pre cur = .ok calls → ExactDiff pre cur calls) ∧
      ∀ (arr : AdtDiff UInt64 V) pre cur calls,
        diffAdtArray arr pre cur = .ok calls → ExactDiff pre cur calls :=
  ⟨fun _ _ _ => diffAdtMap_exact hkey, fun _ _ _ _ => diffAdtMap_exact fun h => by cases h; rfl⟩

def sampleDiff : AdtDiff UInt64 ℕ := ⟨.ok, fun _ => .ok (), fun _ => .ok (), fun _ => .ok ()⟩

def sampleColl (l : List (Σ _ : UInt64, ℕ)) : AList fun _ : UInt64 => ℕ := l.toAList

theorem sampleDiff_exact :
    diffAdtMap sampleDiff (sampleColl [⟨1, 10⟩, ⟨2, 20⟩]) (sampleColl [⟨2, 21⟩, ⟨3, 30⟩]) =
        .ok [.remove 1 10, .modify 2 20 21, .add 3 30] ∧
      ExactDiff (sampleColl [⟨1, 10⟩, ⟨2, 20⟩]) (sampleColl [⟨2, 21⟩, ⟨3, 30⟩])
        [.remove 1 10, .modify 2 20 21, .add 3 30] :=
  ⟨by decide, (@diffAdt_exact _ _ _ sampleDiff fun h => by cases h; rfl).1 _ _ _ (by decide)⟩

/-! ## Two watchers of deal states -/

structure DealState where
  sectorStartEpoch : Int64
  lastUpdatedEpoch : Int64
  slashEpoch : Int64
deriving DecidableEq

/-- `new(market.DealState)` -/
def DealState.zero : DealState := ⟨0, 0, 0⟩

structure MarketDealStateChanges where
  added : List (UInt64 × DealState)
  modified : List (UInt64 × DealState × DealState)
  removed : List (UInt64 × DealState)

abbrev DealStates := AList fun _ : UInt64 => DealState

def MarketDealStateChanges.ofCalls (calls : List (AdtChange UInt64 DealState)) :
    MarketDealStateChanges where
  added := calls.filterMap fun | .add id ds => some (id, ds) | _ => none
  modified := calls.filterMap fun
    | .modify id dsFrom dsTo => if dsFrom ≠ dsTo then some (id, dsFrom, dsTo) else none
    | _ => none
  removed := calls.filterMap fun | .remove id ds => some (id, ds) | _ => none

def onDealStateAmtChanged (out : AdtDiff UInt64 DealState) (old new : DealStates) :
    Except NodeErr (Option MarketDealStateChanges) := do
  let changes := MarketDealStateChanges.ofCalls (← diffAdtArray out old new)
  return if changes.added.length + changes.modified.length + changes.removed.length = 0 then none
    else some changes

/-- `ChangedDeals`: the deal before and after, if it is there. -/
abbrev ChangedDeals := AList fun _ : UInt64 => Option DealState × Option DealState

/-- The loop over the deal IDs; `getOld` and `getNew` are the failures of `Get`. -/
def changedDealsLoop (getOld getNew : UInt64 → Except NodeErr Unit) (old new : DealStates) :
    List UInt64 → ChangedDeals → Except NodeErr ChangedDeals
  | [], changed => .ok changed
  | id :: ids, changed => do
    getOld id
    getNew id
    changedDealsLoop getOld getNew old new ids
      (if (old.lookup id).getD .zero ≠ (new.lookup id).getD .zero then
        changed.insert id (old.lookup id, new.lookup id)
      else changed)

def dealStateChangedForIDs (getOld getNew : UInt64 → Except NodeErr Unit) (ids : List UInt64)
    (old new : DealStates) : Except NodeErr (Option ChangedDeals) := do
  let changed ← changedDealsLoop getOld getNew old new ids ∅
  return if changed.entries.length > 0 then some changed else none

def AmtReports (r : Option MarketDealStateChanges) (id : UInt64) : Option DealState →
    Option DealState → Prop
  | none, some ds => ∃ ch ∈ r, (id, ds) ∈ ch.added
  | some dsFrom, some dsTo => ∃ ch ∈ r, (id, dsFrom, dsTo) ∈ ch.modified
  | some ds, none => ∃ ch ∈ r, (id, ds) ∈ ch.removed
  | none, none => False

def IdReports (r : Option ChangedDeals) (id : UInt64) (old new : Option DealState) : Prop :=
  ∃ changed ∈ r, changed.lookup id = some (old, new)

variable {diff : AdtDiff UInt64 DealState} {old new : DealStates} {ids : List UInt64} {id : UInt64}
  {getOld getNew : UInt64 → Except NodeErr Unit}

section

variable {calls : List (AdtChange UInt64 DealState)} {a b : DealState}

lemma mem_added : (id, b) ∈ (MarketDealStateChanges.ofCalls calls).added ↔ .add id b ∈ calls := by
  simp only [MarketDealStateChanges.ofCalls, mem_filterMap]
  grind

lemma mem_removed :
    (id, a) ∈ (MarketDealStateChanges.ofCalls calls).removed ↔ .remove id a ∈ calls := by
  simp only [MarketDealStateChanges.ofCalls, mem_filterMap]
  grind

lemma mem_modified : (id, a, b) ∈ (MarketDealStateChanges.ofCalls calls).modified ↔
    .modify id a b ∈ calls ∧ a ≠ b := by
  simp only [MarketDealStateChanges.ofCalls, mem_filterMap]
  grind

end

lemma amtReports_iff {r : Option MarketDealStateChanges}
    (h : onDealStateAmtChanged diff old new = .ok r) (a b : Option DealState) :
    AmtReports r id a b ↔ old.lookup id = a ∧ new.lookup id = b ∧ a ≠ b := by
  obtain ⟨calls, hdiff, h⟩ := Check.bind_eq_ok.mp h
  have hmem := (diffAdtMap_exact (fun h => by cases h; rfl) hdiff).mem_iff
  set changes := MarketDealStateChanges.ofCalls calls
  -- Nothing is reported only if the three lists are empty.
  have hr (P : MarketDealStateChanges → Prop) (hP : P changes →
      changes.added.length + changes.modified.length + changes.removed.length ≠ 0) :
      (∃ ch ∈ r, P ch) ↔ P changes := by
    cases h
    split_ifs with hnone
    · exact iff_of_false (by simp) fun hp => hP hp hnone
    · simp
  rcases a with - | a <;> rcases b with - | b
  · simp [AmtReports]
  · rw [AmtReports, hr _ fun hp => by have := length_pos_of_mem hp; omega, mem_added, hmem]
    simp [AdtChange.Between]
  · rw [AmtReports, hr _ fun hp => by have := length_pos_of_mem hp; omega, mem_removed, hmem]
    simp [AdtChange.Between]
  · rw [AmtReports, hr _ fun hp => by have := length_pos_of_mem hp; omega, mem_modified, hmem]
    simp [AdtChange.Between, and_assoc]

lemma changedDealsLoop_lookup {changed changed' : ChangedDeals}
    (h : changedDealsLoop getOld getNew old new ids changed = .ok changed') (id : UInt64) :
    changed'.lookup id =
      if id ∈ ids ∧ (old.lookup id).getD .zero ≠ (new.lookup id).getD .zero then
        some (old.lookup id, new.lookup id)
      else changed.lookup id := by
  induction ids generalizing changed with
  | nil =>
    cases h
    simp
  | cons x ids ih =>
    rw [changedDealsLoop] at h
    obtain ⟨-, -, h⟩ := Check.bind_eq_ok.mp h
    obtain ⟨-, -, h⟩ := Check.bind_eq_ok.mp h
    rw [ih h]
    by_cases hx : id = x
    · subst hx
      split_ifs <;> simp_all
    · split_ifs <;> simp_all [AList.lookup_insert_ne]

lemma idReports_iff {r : Option ChangedDeals} (hid : id ∈ ids)
    (h : dealStateChangedForIDs getOld getNew ids old new = .ok r) (a b : Option DealState) :
    IdReports r id a b ↔ old.lookup id = a ∧ new.lookup id = b ∧ a.getD .zero ≠ b.getD .zero := by
  obtain ⟨changed, hloop, h⟩ := Check.bind_eq_ok.mp h
  have hlookup := changedDealsLoop_lookup hloop id
  rw [AList.lookup_empty] at hlookup
  have hr : IdReports r id a b ↔ changed.lookup id = some (a, b) := by
    cases h
    split_ifs with hsome
    · simp [IdReports]
    · refine iff_of_false (by simp [IdReports]) fun hab => ?_
      exact hsome (length_pos_of_mem (AList.mem_lookup_iff.mp hab))
  rw [hr, hlookup]
  split_ifs with hne <;> grind

/-- The watcher of deal IDs reports a deal of its list as the watcher of all deals does if and only
if the deal does not come or go with all fields zero. -/
theorem dealWatchers_agree_iff {r : Option ChangedDeals} {r' : Option MarketDealStateChanges}
    (hid : id ∈ ids) (h : dealStateChangedForIDs getOld getNew ids old new = .ok r)
    (h' : onDealStateAmtChanged diff old new = .ok r') :
    (∀ a b, IdReports r id a b ↔ AmtReports r' id a b) ↔
      ¬(old.lookup id = none ∧ new.lookup id = some .zero ∨
        old.lookup id = some .zero ∧ new.lookup id = none) := by
  simp only [idReports_iff hid h, amtReports_iff h']
  constructor
  · rintro hall (⟨hold, hnew⟩ | ⟨hold, hnew⟩)
    · exact absurd rfl ((hall none (some .zero)).mpr ⟨hold, hnew, by simp⟩).2.2
    · exact absurd rfl ((hall (some .zero) none).mpr ⟨hold, hnew, by simp⟩).2.2
  · intro hghost a b
    refine and_congr_right fun hold => and_congr_right fun hnew => not_congr ⟨fun heq => ?_, ?_⟩
    · cases a <;> cases b <;> simp_all
    · rintro rfl
      rfl

def sampleDealDiff : AdtDiff UInt64 DealState :=
  ⟨.ok, fun _ => .ok (), fun _ => .ok (), fun _ => .ok ()⟩

def sampleDeals (l : List (Σ _ : UInt64, DealState)) : DealStates := l.toAList

def sampleWatch (old new : List (Σ _ : UInt64, DealState)) :
    Except NodeErr (Option ChangedDeals) × Except NodeErr (Option MarketDealStateChanges) :=
  (dealStateChangedForIDs (fun _ => .ok ()) (fun _ => .ok ()) [1] (sampleDeals old)
    (sampleDeals new), onDealStateAmtChanged sampleDealDiff (sampleDeals old) (sampleDeals new))

theorem sampleActivated_agree : ∃ r r',
    sampleWatch [⟨1, .zero⟩] [⟨1, ⟨5, 0, 0⟩⟩] = (.ok (some r), .ok (some r')) ∧
      ∀ a b, IdReports (some r) 1 a b ↔ AmtReports (some r') 1 a b := by
  have hids : (sampleWatch [⟨1, .zero⟩] [⟨1, ⟨5, 0, 0⟩⟩]).1 =
      .ok (some (AList.singleton 1 (some .zero, some ⟨5, 0, 0⟩))) := rfl
  have hamt : (sampleWatch [⟨1, .zero⟩] [⟨1, ⟨5, 0, 0⟩⟩]).2 =
      .ok (some ⟨[], [(1, .zero, ⟨5, 0, 0⟩)], []⟩) := rfl
  exact ⟨_, _, Prod.ext hids hamt,
    (dealWatchers_agree_iff mem_cons_self hids hamt).mpr (by decide)⟩

theorem sampleZeroDeal_missed :
    sampleWatch [] [⟨1, .zero⟩] = (.ok none, .ok (some ⟨[(1, .zero)], [], []⟩)) :=
  rfl

end Lotus

import Lotus.Lib.Total
import Lotus.Paych.Manager

/-!
# The vouchers of a channel

What `AddVoucher` accepts, over every run of the manager against a fixed chain.
-/

namespace Lotus

open Check Total List Function

def redeemedOnChain (st : PaychState) (lane : UInt64) : ℤ :=
  ((chainLaneStates st).lookup lane).elim 0 LaneState.redeemed

def bestAmount (st : PaychState) (svs : List SignedVoucher) (lane : UInt64) : ℤ :=
  ((svs.filter fun sv => sv.lane = lane).getLast?).elim (redeemedOnChain st lane)
    SignedVoucher.amount

def Supersedes (sv sv' : SignedVoucher) : Prop :=
  sv.lane = sv'.lane → sv.nonce < sv'.nonce ∧ sv.amount < sv'.amount
deriving Decidable

/-! ## Lane states -/

variable {lanes : LaneStates} {sv : SignedVoucher} {st : PaychState} {act : Actor}

lemma sum_keys (lanes : LaneStates) :
    (lanes.keys.sum fun lane => (lanes.lookup lane).elim 0 LaneState.redeemed) =
      total LaneState.redeemed fun lane => lanes.lookup lane := by
  refine (finsum_eq_sum_of_support_subset _ fun lane hlane => ?_).symm
  rw [Finset.mem_coe, Finmap.mem_keys]
  by_contra hmem
  rw [Function.mem_support, Finmap.lookup_eq_none.mpr hmem] at hlane
  exact hlane rfl

lemma finite_lookup (lanes : LaneStates) : {lane | lanes.lookup lane ≠ none}.Finite := by
  refine lanes.keys.finite_toSet.subset fun lane hlane => ?_
  grind [Finmap.mem_keys, Finmap.lookup_eq_none]

lemma total_insert (lanes : LaneStates) (lane : UInt64) (ls : LaneState) :
    (total LaneState.redeemed fun l => (lanes.insert lane ls).lookup l) =
      (total LaneState.redeemed fun l => lanes.lookup l) -
        (lanes.lookup lane).elim 0 LaneState.redeemed + ls.redeemed := by
  have hupdate : (fun l => (lanes.insert lane ls).lookup l) =
      update (fun l => lanes.lookup l) lane (some ls) := by
    funext l
    by_cases hl : l = lane
    · subst hl
      rw [Finmap.lookup_insert, update_self]
    · rw [Finmap.lookup_insert_of_ne _ hl, update_of_ne hl]
  rw [hupdate, total_update _ (finite_lookup lanes)]
  rfl

def Tops (lanes : LaneStates) (sv : SignedVoucher) : Prop :=
  ∀ ls ∈ lanes.lookup sv.lane, ls.nonce < sv.nonce ∧ ls.redeemed < sv.amount

/-- What the checks of a voucher against the lane states guarantee. -/
lemma checkAgainstLanes_eq_ok (h : checkAgainstLanes act st lanes sv = .ok ()) :
    sv.merges = [] ∧ Tops lanes sv ∧ (total LaneState.redeemed fun lane => lanes.lookup lane) +
        (sv.amount - (lanes.lookup sv.lane).elim 0 LaneState.redeemed) + st.toSend ≤
          act.balance := by
  simp only [checkAgainstLanes, bind_eq_ok, require_eq_ok] at h
  obtain ⟨-, hnonce, -, hamount, redeemed, hredeemed, -, hbalance, hmerges⟩ := h
  have htops : Tops lanes sv := fun ls hls =>
    ⟨UInt64.not_le.mp (hnonce ls hls), not_le.mp (hamount ls hls)⟩
  refine ⟨hmerges, htops, ?_⟩
  simp only [totalRedeemedWithVoucher, bind_eq_ok, require_eq_ok, sum_keys] at hredeemed
  obtain ⟨-, -, hredeemed⟩ := hredeemed
  rcases hls : lanes.lookup sv.lane with _ | ls
  · grind
  · grind

lemma applyStored_of_tops (hmerges : sv.merges = []) (h : Tops lanes sv) :
    ∃ ls : LaneState, ls.nonce = sv.nonce ∧ ls.redeemed = sv.amount ∧
      applyStored lanes sv = .ok (lanes.insert sv.lane ls) := by
  rw [applyStored, laneOrNew, hmerges]
  rcases hls : lanes.lookup sv.lane with _ | ls
  · have hnew : ¬sv.nonce < 0 := UInt64.not_lt_zero
    refine ⟨⟨sv.lane, sv.amount, sv.nonce⟩, rfl, rfl, ?_⟩
    simp [hnew, require, bind, Except.bind, Finmap.insert_insert]
  · have hnonce : ¬sv.nonce < ls.nonce := UInt64.lt_asymm (h ls hls).1
    refine ⟨{ ls with nonce := sv.nonce, redeemed := sv.amount }, rfl, rfl, ?_⟩
    simp [hnonce, require, bind, Except.bind]

structure Accounted (act : Actor) (st : PaychState) (svs : List SignedVoucher)
    (lanes : LaneStates) : Prop where
  laneState_eq : svs.foldlM applyStored (chainLaneStates st) = .ok lanes
  redeemed_eq : ∀ lane, (lanes.lookup lane).elim 0 LaneState.redeemed = bestAmount st svs lane
  below : ∀ sv ∈ svs, ∃ ls, lanes.lookup sv.lane = some ls ∧ sv.nonce ≤ ls.nonce ∧
    sv.amount ≤ ls.redeemed
  increasing : svs.Pairwise Supersedes
  solvent : svs ≠ [] →
    (total LaneState.redeemed fun lane => lanes.lookup lane) + st.toSend ≤ act.balance

lemma Accounted.nil : Accounted act st [] (chainLaneStates st) where
  laneState_eq := rfl
  redeemed_eq _ := rfl
  below := forall_mem_nil _
  increasing := .nil
  solvent h := absurd rfl h

lemma bestAmount_concat (svs : List SignedVoucher) (lane : UInt64) :
    bestAmount st (svs ++ [sv]) lane =
      if sv.lane = lane then sv.amount else bestAmount st svs lane := by
  unfold bestAmount
  rw [filter_append]
  split_ifs with hlane
  · grind
  · grind

/-- A voucher that passes the checks keeps the account. -/
lemma Accounted.concat {svs : List SignedVoucher} (h : Accounted act st svs lanes)
    (hcheck : checkAgainstLanes act st lanes sv = .ok ()) :
    ∃ lanes', Accounted act st (svs ++ [sv]) lanes' := by
  obtain ⟨hmerges, htops, hbalance⟩ := checkAgainstLanes_eq_ok hcheck
  obtain ⟨ls, hnonce, hredeemed, happly⟩ := applyStored_of_tops hmerges htops
  refine ⟨lanes.insert sv.lane ls, ?_, ?_, ?_, ?_, ?_⟩
  · rw [foldlM_append, h.laneState_eq]
    exact (bind_pure _).trans happly
  · intro lane
    rw [bestAmount_concat]
    split_ifs with hlane
    · rwa [← hlane, Finmap.lookup_insert]
    · rw [Finmap.lookup_insert_of_ne _ (Ne.symm hlane)]
      exact h.redeemed_eq lane
  · intro w hw
    rcases mem_append.mp hw with hw | hw
    · obtain ⟨ls', hls', hle⟩ := h.below w hw
      by_cases hlane : w.lane = sv.lane
      · obtain ⟨hlt, hlt'⟩ := htops ls' (hlane ▸ hls')
        rw [hlane, Finmap.lookup_insert]
        grind
      · exact ⟨ls', by rwa [Finmap.lookup_insert_of_ne _ hlane], hle⟩
    · obtain rfl := mem_singleton.mp hw
      rw [Finmap.lookup_insert]
      exact ⟨ls, rfl, hnonce ▸ UInt64.le_refl _, hredeemed ▸ le_rfl⟩
  · refine pairwise_append.mpr ⟨h.increasing, pairwise_singleton _ _, ?_⟩
    intro w hw w' hw' hlane
    obtain rfl := mem_singleton.mp hw'
    obtain ⟨ls', hls', hle⟩ := h.below w hw
    obtain ⟨hlt, hlt'⟩ := htops ls' (hlane ▸ hls')
    exact ⟨UInt64.lt_of_le_of_lt hle.1 hlt, hle.2.trans_lt hlt'⟩
  · grind [total_insert]

/-! ## The store -/

def Sound (pm : PaychManager) (s : PaychStore) : Prop :=
  ∀ ch ci, s.channels ch = some ci → ∃ act st lanes, pm.loadPaychState ch = .ok (act, st) ∧
    Accounted act st (ci.vouchers.map VoucherInfo.voucher) lanes

variable {pm : PaychManager} {s : PaychStore} {ch : Address} {ci : ChannelInfo}

lemma Sound.put (h : Sound pm s) (hci : ∃ act st lanes, pm.loadPaychState ci.channel =
      .ok (act, st) ∧ Accounted act st (ci.vouchers.map VoucherInfo.voucher) lanes) :
    Sound pm (s.put ci) := by
  intro ch' ci' hci'
  by_cases hch : ch' = ci.channel
  · grind [PaychStore.put_self]
  · rw [PaychStore.put_of_ne _ hch] at hci'
    exact h ch' ci' hci'

namespace PaychManager

lemma putChannelInfo_cases (pm : PaychManager) (ci : ChannelInfo) (s : PaychStore) :
    pm.putChannelInfo ci s = (.ok (), s.put ci) ∨
      ∃ err, pm.putChannelInfo ci s = (.error err, s) := by
  unfold putChannelInfo
  rcases pm.write ci with err | u
  · exact .inr ⟨err, rfl⟩
  · exact .inl rfl

lemma equals_eq_true {sv' : SignedVoucher} (h : pm.equals sv sv' = .ok true) : sv = sv' := by
  unfold equals at h
  obtain ⟨b, hb, h⟩ := bind_eq_ok.mp h
  obtain ⟨b', hb', h⟩ := bind_eq_ok.mp h
  have heq : b = b' := of_decide_eq_true (Except.ok.inj h)
  exact pm.dump_inj hb (heq ▸ hb')

variable {v : VoucherInfo} {vs : List VoucherInfo}

/-- The voucher that is found is the stored one at its index. -/
lemma findStored_eq_some {i : ℕ} (h : pm.findStored sv vs = .ok (some (i, v))) :
    vs[i]? = some v ∧ v.voucher = sv := by
  induction vs generalizing i with
  | nil => cases h
  | cons w vs ih =>
    rw [findStored] at h
    obtain ⟨eq, heq, h⟩ := bind_eq_ok.mp h
    cases eq with
    | true =>
      cases h
      exact ⟨rfl, (equals_eq_true heq).symm⟩
    | false =>
      obtain ⟨found, hfound, h⟩ := bind_eq_ok.mp h
      rcases found with _ | ⟨j, v'⟩
      · cases h
      · cases h
        exact ih hfound

lemma addProof_cases (ci : ChannelInfo) (i : ℕ) (v : VoucherInfo) (proof : Bytes) :
    pm.addProof ci i v proof s = (.ok 0, s) ∨
      (∃ err, pm.addProof ci i v proof s = (.error err, s)) ∨
      pm.addProof ci i v proof s =
        (.ok 0, s.put { ci with vouchers := ci.vouchers.set i ⟨v.voucher, proof⟩ }) := by
  unfold addProof
  split_ifs with hproof
  · rcases pm.putChannelInfo_cases
        { ci with vouchers := ci.vouchers.set i ⟨v.voucher, proof⟩ } s with hput | ⟨err, hput⟩
    · exact .inr (.inr (by rw [Act.bind_apply, Act.mapError_apply, hput]; rfl))
    · exact .inr (.inl ⟨_, by rw [Act.bind_apply, Act.mapError_apply, hput]; rfl⟩)
  · exact .inl rfl

/-- A new voucher is written with its delta, or nothing is. -/
lemma addNew_cases (ci : ChannelInfo) (lanes : LaneStates) (proof : Bytes) (minDelta : ℤ) :
    (∃ err, pm.addNew ci lanes sv proof minDelta s = (.error err, s)) ∨
      ∃ nextLane, pm.addNew ci lanes sv proof minDelta s =
        (.ok (sv.amount - (lanes.lookup sv.lane).elim 0 LaneState.redeemed),
          s.put { ci with vouchers := ci.vouchers ++ [⟨sv, proof⟩], nextLane := nextLane }) := by
  rw [addNew]
  by_cases hdelta : minDelta > sv.amount - (lanes.lookup sv.lane).elim 0 LaneState.redeemed
  · rw [if_pos hdelta]
    exact .inl ⟨_, rfl⟩
  · rw [if_neg hdelta]
    rcases pm.putChannelInfo_cases { ci with
        vouchers := ci.vouchers ++ [⟨sv, proof⟩]
        nextLane := if ci.nextLane ≤ sv.lane then sv.lane + 1 else ci.nextLane } s with
      hput | ⟨err, hput⟩
    · exact .inr ⟨_, by rw [Act.bind_apply, Act.mapError_apply, hput]; rfl⟩
    · exact .inl ⟨_, by rw [Act.bind_apply, Act.mapError_apply, hput]; rfl⟩

/-- What `AddVoucher` does: nothing, another proof for a stored voucher, or a new voucher. -/
lemma addVoucher_cases (pm : PaychManager) (s : PaychStore) (ch : Address) (sv : SignedVoucher)
    (proof : Bytes) (minDelta : ℤ) :
    pm.addVoucher ch sv proof minDelta s = (.ok 0, s) ∨
    (∃ err, pm.addVoucher ch sv proof minDelta s = (.error err, s)) ∨
    (∃ ci i v, s.channels ch = some ci ∧ pm.findStored sv ci.vouchers = .ok (some (i, v)) ∧
      pm.addVoucher ch sv proof minDelta s =
        (.ok 0, s.put { ci with vouchers := ci.vouchers.set i ⟨v.voucher, proof⟩ })) ∨
    (∃ ci lanes nextLane, s.channels ch = some ci ∧ pm.findStored sv ci.vouchers = .ok none ∧
      pm.checkVoucherValid ch sv s = .ok lanes ∧
      pm.addVoucher ch sv proof minDelta s =
        (.ok (sv.amount - (lanes.lookup sv.lane).elim 0 LaneState.redeemed),
          s.put { ci with vouchers := ci.vouchers ++ [⟨sv, proof⟩], nextLane := nextLane })) := by
  rcases hci : s.channels ch with _ | ci
  · have hget : getChannelInfo s ch = .error (.new "channel not tracked") := by
      rw [getChannelInfo, hci]
    refine .inr (.inl ⟨(0, .new "channel not tracked"), ?_⟩)
    rw [addVoucher, Act.bind_of_ok (Act.get_apply s), hget]
    rfl
  have hget : getChannelInfo s ch = .ok ci := by rw [getChannelInfo, hci]
  rw [addVoucher, Act.bind_of_ok (Act.get_apply s), hget]
  rw [Act.bind_of_ok (Act.ofExcept_of_ok (mapError_eq_ok.mpr rfl) s)]
  rcases hfind : pm.findStored sv ci.vouchers with err | _ | ⟨i, v⟩
  · exact .inr (.inl ⟨(0, err), rfl⟩)
  · rcases hvalid : pm.checkVoucherValid ch sv s with err | lanes
    · exact .inr (.inl ⟨(0, err), rfl⟩)
    · rcases addNew_cases ci lanes proof minDelta with hnew | ⟨nextLane, hnew⟩
      · exact .inr (.inl hnew)
      · exact .inr (.inr (.inr ⟨ci, lanes, nextLane, rfl, hfind, rfl, hnew⟩))
  · rcases addProof_cases ci i v proof with hsame | herr | hput
    · exact .inl hsame
    · exact .inr (.inl herr)
    · exact .inr (.inr (.inl ⟨ci, i, v, rfl, hfind, hput⟩))

/-- A stored voucher is found, or the search fails. -/
lemma findStored_ne_none (hv : v ∈ vs) : pm.findStored v.voucher vs ≠ .ok none := by
  intro h
  induction vs with
  | nil => cases hv
  | cons w vs ih =>
    rw [findStored] at h
    obtain ⟨eq, heq, h⟩ := bind_eq_ok.mp h
    cases eq with
    | true => cases h
    | false =>
      rcases mem_cons.mp hv with rfl | hv
      · obtain ⟨b, hb, heq⟩ := bind_eq_ok.mp heq
        simp_all [bind_eq_ok]
      · obtain ⟨found, hfound, h⟩ := bind_eq_ok.mp h
        simp_all

lemma checkVoucherValid_eq_ok (h : pm.checkVoucherValid ch sv s = .ok lanes) :
    ∃ act st, pm.loadPaychState ch = .ok (act, st) ∧
      laneState st (vouchersForPaych s ch) = .ok lanes ∧
      checkAgainstLanes act st lanes sv = .ok () := by
  unfold checkVoucherValid at h
  obtain ⟨_, _, h⟩ := bind_eq_ok.mp h
  obtain ⟨⟨act, st⟩, hload, h⟩ := bind_eq_ok.mp h
  obtain ⟨_, _, h⟩ := bind_eq_ok.mp h
  obtain ⟨_, _, h⟩ := bind_eq_ok.mp h
  obtain ⟨_, _, h⟩ := bind_eq_ok.mp h
  obtain ⟨lanes', hlanes, h⟩ := bind_eq_ok.mp h
  obtain ⟨_, hcheck, h⟩ := bind_eq_ok.mp h
  cases h
  exact ⟨act, st, hload, hlanes, hcheck⟩

lemma loadStateChannelInfo_eq_ok {dir : Direction} (h : pm.loadStateChannelInfo ch dir = .ok ci) :
    ∃ act st, pm.loadPaychState ch = .ok (act, st) ∧ ci.channel = ch ∧ ci.vouchers = [] := by
  unfold loadStateChannelInfo at h
  obtain ⟨⟨act, st⟩, hload, h⟩ := bind_eq_ok.mp h
  obtain ⟨fromAddr, _, h⟩ := bind_eq_ok.mp h
  obtain ⟨toAddr, _, h⟩ := bind_eq_ok.mp h
  cases h
  cases dir <;> exact ⟨act, st, hload, rfl, rfl⟩

/-- A channel is tracked from chain, with no vouchers, unless it is tracked already. -/
lemma trackChannel_cases (pm : PaychManager) (s : PaychStore) (ch : Address) (dir : Direction) :
    (pm.trackChannel ch dir s).2 = s ∨
      ∃ ci act st, pm.loadPaychState ch = .ok (act, st) ∧ s.channels ch = none ∧
        ci.channel = ch ∧ ci.vouchers = [] ∧ (pm.trackChannel ch dir s).2 = s.put ci := by
  rw [trackChannel]
  rcases hci : pm.loadStateChannelInfo ch dir with err | ci
  · exact .inl rfl
  · obtain ⟨act, st, hload, rfl, hvouchers⟩ := loadStateChannelInfo_eq_ok hci
    rw [Act.bind_of_ok (Act.ofExcept_of_ok rfl s), Act.bind_of_ok (Act.get_apply s)]
    rcases hnone : s.channels ci.channel with _ | ci'
    · rcases pm.putChannelInfo_cases ci s with hput | ⟨err, hput⟩
      · exact .inr ⟨ci, act, st, hload, rfl, rfl, hvouchers, congrArg Prod.snd hput⟩
      · exact .inl (congrArg Prod.snd hput)
    · exact .inl rfl

lemma allocateLane_cases (pm : PaychManager) (s : PaychStore) (ch : Address) :
    (pm.allocateLane ch s).2 = s ∨ ∃ ci, s.channels ch = some ci ∧
        (pm.allocateLane ch s).2 = s.put { ci with nextLane := ci.nextLane + 1 } := by
  rw [allocateLane, Act.bind_of_ok (Act.get_apply s), getChannelInfo]
  rcases hci : s.channels ch with _ | ci
  · exact .inl rfl
  · rw [Act.bind_of_ok (Act.ofExcept_of_ok rfl s)]
    rcases pm.putChannelInfo_cases { ci with nextLane := ci.nextLane + 1 } s with
      hput | ⟨err, hput⟩
    · rw [Act.bind_of_ok hput]
      exact .inr ⟨ci, rfl, rfl⟩
    · rw [Act.bind_of_error hput]
      exact .inl rfl

lemma map_voucher_set {i : ℕ} (h : vs[i]? = some v) (proof : Bytes) :
    (vs.set i ⟨v.voucher, proof⟩).map VoucherInfo.voucher = vs.map VoucherInfo.voucher := by
  obtain ⟨hi, rfl⟩ := List.getElem?_eq_some_iff.mp h
  rw [List.map_set]
  refine ext_getElem (by simp) fun j hj hj' => ?_
  grind

lemma vouchersForPaych_of_some (h : s.channels ch = some ci) :
    vouchersForPaych s ch = ci.vouchers := by
  rw [vouchersForPaych, h]
  rfl

end PaychManager

open PaychManager

lemma Sound.accounted (h : Sound pm s) (hci : s.channels ch = some ci)
    (hvalid : pm.checkVoucherValid ch sv s = .ok lanes) :
    ∃ act st, pm.loadPaychState ch = .ok (act, st) ∧
      Accounted act st (ci.vouchers.map VoucherInfo.voucher) lanes ∧
      checkAgainstLanes act st lanes sv = .ok () := by
  obtain ⟨act, st, hload, hlanes, hcheck⟩ := checkVoucherValid_eq_ok hvalid
  obtain ⟨act', st', lanes', hload', haccounted⟩ := h ch ci hci
  obtain ⟨rfl, rfl⟩ := Prod.mk.inj (Except.ok.inj (hload.symm.trans hload'))
  rw [vouchersForPaych_of_some hci] at hlanes
  cases hlanes.symm.trans haccounted.laneState_eq
  exact ⟨act, st, hload, haccounted, hcheck⟩

lemma Sound.addVoucher (h : Sound pm s) (ch : Address) (sv : SignedVoucher) (proof : Bytes)
    (minDelta : ℤ) : Sound pm (pm.addVoucher ch sv proof minDelta s).2 := by
  rcases addVoucher_cases pm s ch sv proof minDelta with hsame | ⟨err, hsame⟩ |
    ⟨ci, i, v, hci, hfind, hput⟩ | ⟨ci, lanes, nextLane, hci, -, hvalid, hput⟩
  · rwa [hsame]
  · rwa [hsame]
  · rw [hput]
    refine h.put ?_
    dsimp only
    rw [s.channel_eq hci, map_voucher_set (findStored_eq_some hfind).1]
    exact h ch ci hci
  · rw [hput]
    refine h.put ?_
    dsimp only
    rw [s.channel_eq hci, map_append]
    obtain ⟨act, st, hload, haccounted, hcheck⟩ := h.accounted hci hvalid
    simp_all [haccounted.concat]

lemma Sound.allocateLane (h : Sound pm s) (ch : Address) : Sound pm (pm.allocateLane ch s).2 := by
  rcases allocateLane_cases pm s ch with hsame | ⟨ci, hci, hput⟩
  · rwa [hsame]
  · rw [hput]
    refine h.put ?_
    dsimp only
    rw [s.channel_eq hci]
    exact h ch ci hci

lemma Sound.trackChannel (h : Sound pm s) (ch : Address) (dir : Direction) :
    Sound pm (pm.trackChannel ch dir s).2 := by
  rcases trackChannel_cases pm s ch dir with
    hsame | ⟨ci, act, st, hload, -, rfl, hvouchers, hput⟩
  · rwa [hsame]
  · rw [hput]
    refine h.put ?_
    rw [hvouchers]
    exact ⟨act, st, _, hload, .nil⟩

lemma Sound.step (h : Sound pm s) (call : PaychCall) : Sound pm (pm.step s call) := by
  cases call with
  | track ch dir => exact h.trackChannel ch dir
  | allocateLane ch => exact h.allocateLane ch
  | addVoucher ch sv proof minDelta => exact h.addVoucher ch sv proof minDelta

/-! ## Deltas -/

namespace PaychManager

def knownAmount (pm : PaychManager) (s : PaychStore) (ch : Address) (lane : UInt64) : ℤ :=
  match pm.loadPaychState ch with
  | .ok (_, st) => bestAmount st ((vouchersForPaych s ch).map VoucherInfo.voucher) lane
  | .error _ => 0

def delta (pm : PaychManager) (ch : Address) (lane : UInt64) (s : PaychStore) : PaychCall → ℤ
  | .addVoucher ch' sv proof minDelta =>
    if ch' = ch ∧ sv.lane = lane then (pm.addVoucher ch' sv proof minDelta s).1.toOption.getD 0
    else 0
  | .track _ _ | .allocateLane _ => 0

def deltas (pm : PaychManager) (ch : Address) (lane : UInt64) : PaychStore → List PaychCall → ℤ
  | _, [] => 0
  | s, call :: calls => pm.delta ch lane s call + pm.deltas ch lane (pm.step s call) calls

lemma vouchersForPaych_put (s : PaychStore) (ci : ChannelInfo) (ch : Address) :
    vouchersForPaych (s.put ci) ch =
      if ch = ci.channel then ci.vouchers else vouchersForPaych s ch := by
  unfold vouchersForPaych
  split_ifs with hch
  · rw [hch, PaychStore.put_self]
    rfl
  · rw [PaychStore.put_of_ne _ hch]

lemma knownAmount_put (hvouchers : ci.vouchers.map VoucherInfo.voucher =
      (vouchersForPaych s ci.channel).map VoucherInfo.voucher) (ch : Address) (lane : UInt64) :
    pm.knownAmount (s.put ci) ch lane = pm.knownAmount s ch lane := by
  grind [knownAmount, vouchersForPaych_put]

end PaychManager

/-- A new voucher raises what is known of its lane by the delta, and of no other lane. -/
lemma Sound.knownAmount_concat (h : Sound pm s) {proof : Bytes} {nextLane : UInt64}
    (hci : s.channels ch = some ci) (hvalid : pm.checkVoucherValid ch sv s = .ok lanes)
    (ch' : Address) (lane : UInt64) :
    pm.knownAmount
        (s.put { ci with vouchers := ci.vouchers ++ [⟨sv, proof⟩], nextLane := nextLane })
        ch' lane =
      pm.knownAmount s ch' lane +
        if ch = ch' ∧ sv.lane = lane then
          sv.amount - (lanes.lookup sv.lane).elim 0 LaneState.redeemed
        else 0 := by
  obtain ⟨act, st, hload, haccounted, -⟩ := h.accounted hci hvalid
  unfold knownAmount
  rw [vouchersForPaych_put]
  dsimp only
  rw [s.channel_eq hci]
  by_cases hch : ch' = ch
  · subst hch
    rw [if_pos rfl, hload, vouchersForPaych_of_some hci, map_append]
    dsimp only
    rw [map_singleton, bestAmount_concat]
    by_cases hlane : sv.lane = lane
    · subst hlane
      rw [if_pos rfl, if_pos ⟨rfl, rfl⟩, haccounted.redeemed_eq]
      exact (add_sub_cancel _ sv.amount).symm
    · rw [if_neg hlane, if_neg fun hboth => hlane hboth.2, add_zero]
  · rw [if_neg hch, if_neg fun hboth => hch hboth.1.symm, add_zero]

/-- The delta of a call is what it adds to the known amount. -/
lemma Sound.knownAmount_step (h : Sound pm s) (call : PaychCall) (ch : Address) (lane : UInt64) :
    pm.knownAmount (pm.step s call) ch lane =
      pm.knownAmount s ch lane + pm.delta ch lane s call := by
  cases call with
  | track ch' dir =>
    rw [delta, add_zero, PaychManager.step]
    rcases trackChannel_cases pm s ch' dir with
      hsame | ⟨ci, act, st, hload, hnone, rfl, hvouchers, hput⟩
    · rw [hsame]
    · rw [hput]
      refine knownAmount_put ?_ ch lane
      rw [hvouchers, vouchersForPaych, hnone]
      rfl
  | allocateLane ch' =>
    rw [delta, add_zero, PaychManager.step]
    rcases allocateLane_cases pm s ch' with hsame | ⟨ci, hci, hput⟩
    · rw [hsame]
    · rw [hput]
      refine knownAmount_put ?_ ch lane
      dsimp only
      rw [s.channel_eq hci, vouchersForPaych_of_some hci]
  | addVoucher ch' sv proof minDelta =>
    rw [delta, PaychManager.step]
    rcases addVoucher_cases pm s ch' sv proof minDelta with hsame | ⟨err, hsame⟩ |
      ⟨ci, i, v, hci, hfind, hput⟩ | ⟨ci, lanes, nextLane, hci, -, hvalid, hput⟩
    · rw [hsame]
      simp [Except.toOption]
    · rw [hsame]
      simp [Except.toOption]
    · grind [knownAmount_put, Except.toOption, s.channel_eq, vouchersForPaych_of_some,
        map_voucher_set, findStored_eq_some]
    · rw [hput]
      exact h.knownAmount_concat hci hvalid ch lane

lemma Sound.knownAmount_foldl (h : Sound pm s) (calls : List PaychCall) (ch : Address)
    (lane : UInt64) :
    pm.knownAmount (calls.foldl pm.step s) ch lane =
      pm.knownAmount s ch lane + pm.deltas ch lane s calls := by
  induction calls generalizing s with
  | nil => exact (add_zero _).symm
  | cons call calls ih =>
    rw [foldl_cons, ih (h.step call), h.knownAmount_step call, deltas, add_assoc]

lemma Sound.foldl (h : Sound pm s) (calls : List PaychCall) : Sound pm (calls.foldl pm.step s) :=
  List.foldlRecOn calls pm.step h fun _ hs call _ => hs.step call

def OnlyProof (sv : SignedVoucher) (ci ci' : ChannelInfo) : Prop :=
  ci' = { ci with vouchers := ci'.vouchers } ∧
    List.Forall₂ (fun v v' => v'.voucher = v.voucher ∧ (v.voucher ≠ sv → v' = v)) ci.vouchers
      ci'.vouchers

lemma OnlyProof.refl (sv : SignedVoucher) (ci : ChannelInfo) : OnlyProof sv ci ci :=
  ⟨rfl, forall₂_same.mpr fun _ _ => ⟨rfl, fun _ => rfl⟩⟩

lemma OnlyProof.set {i : ℕ} {v : VoucherInfo} (h : ci.vouchers[i]? = some v) (proof : Bytes) :
    OnlyProof v.voucher ci { ci with vouchers := ci.vouchers.set i ⟨v.voucher, proof⟩ } := by
  obtain ⟨hi, rfl⟩ := List.getElem?_eq_some_iff.mp h
  refine ⟨rfl, List.forall₂_iff_get.mpr ⟨(List.length_set ..).symm, fun j hj hj' => ?_⟩⟩
  grind

/-- A voucher that is stored and added again changes nothing but its proof, and has no delta. -/
lemma addVoucher_stored {v : VoucherInfo} (hci : s.channels ch = some ci) (hv : v ∈ ci.vouchers)
    (proof : Bytes) (minDelta : ℤ) :
    (∀ d, (pm.addVoucher ch v.voucher proof minDelta s).1 = .ok d → d = 0) ∧
      ∃ ci', OnlyProof v.voucher ci ci' ∧ (pm.addVoucher ch v.voucher proof minDelta s).2.channels =
          update s.channels ch (some ci') := by
  have hkept : s.channels = update s.channels ch (some ci) := by
    rw [← hci, update_eq_self]
  rcases addVoucher_cases pm s ch v.voucher proof minDelta with hsame | ⟨err, hsame⟩ |
    ⟨ci', i, v', hci', hfind, hput⟩ | ⟨ci', lanes, nextLane, hci', hfind, -, -⟩
  · rw [hsame]
    exact ⟨fun d hd => (Except.ok.inj hd).symm, ci, .refl _ _, hkept⟩
  · rw [hsame]
    exact ⟨nofun, ci, .refl _ _, hkept⟩
  · cases hci.symm.trans hci'
    obtain ⟨hget, hvoucher⟩ := findStored_eq_some hfind
    have honly := OnlyProof.set hget proof
    rw [hvoucher] at honly
    rw [hput, hvoucher]
    refine ⟨fun d hd => (Except.ok.inj hd).symm, _, honly, ?_⟩
    show update s.channels ci.channel _ = _
    rw [s.channel_eq hci]
  · grind [findStored_ne_none]

/-! ## The books of a channel -/

lemma Accounted.finsum_le {svs : List SignedVoucher} (h : Accounted act st svs lanes)
    (hne : svs ≠ []) : (∑ᶠ lane, bestAmount st svs lane) + st.toSend ≤ act.balance := by
  have hsum := h.solvent hne
  rw [total, finsum_congr h.redeemed_eq] at hsum
  exact hsum

/-- In every run from an empty store, the vouchers of a channel supersede each other in their lanes,
its balance covers the best amounts and what it has to send, the deltas of a lane add up to its best
amount without what was redeemed, and adding a voucher again changes only its proof. -/
theorem vouchers_booked (pm : PaychManager) (calls : List PaychCall) (ch : Address)
    (ci : ChannelInfo) (hci : (calls.foldl pm.step .empty).channels ch = some ci) :
    ∃ act st, pm.loadPaychState ch = .ok (act, st) ∧
      (ci.vouchers.map VoucherInfo.voucher).Pairwise Supersedes ∧
      (ci.vouchers ≠ [] →
        (∑ᶠ lane, bestAmount st (ci.vouchers.map VoucherInfo.voucher) lane) + st.toSend ≤
          act.balance) ∧
      (∀ lane, pm.deltas ch lane .empty calls =
        bestAmount st (ci.vouchers.map VoucherInfo.voucher) lane - redeemedOnChain st lane) ∧
      ∀ v ∈ ci.vouchers, ∀ proof minDelta,
        (∀ d, (pm.addVoucher ch v.voucher proof minDelta (calls.foldl pm.step .empty)).1 = .ok d →
          d = 0) ∧
        ∃ ci', OnlyProof v.voucher ci ci' ∧
          (pm.addVoucher ch v.voucher proof minDelta (calls.foldl pm.step .empty)).2.channels =
            update (calls.foldl pm.step .empty).channels ch (some ci') := by
  have hempty : Sound pm .empty := fun _ _ h => by cases h
  obtain ⟨act, st, lanes, hload, haccounted⟩ := hempty.foldl calls ch ci hci
  refine ⟨act, st, hload, haccounted.increasing, ?_, ?_, ?_⟩
  · exact fun hne => haccounted.finsum_le (by simpa using hne)
  · intro lane
    have hknown := hempty.knownAmount_foldl calls ch lane
    unfold knownAmount at hknown
    rw [hload] at hknown
    dsimp only at hknown
    rw [vouchersForPaych_of_some hci] at hknown
    exact eq_sub_of_add_eq' hknown.symm
  · exact fun v hv proof minDelta => addVoucher_stored hci hv proof minDelta

def samplePaychState : PaychState := ⟨.id 100, .id 101, 1, [⟨0, 3, 1⟩]⟩

def sampleVoucher (lane nonce : UInt64) (amount : ℤ) : SignedVoucher :=
  ⟨.id 200, 0, 0, [], none, lane, nonce, amount, 0, [], none⟩

def samplePaychManager : PaychManager where
  loadPaychState _ := .ok (⟨⟨[]⟩, ⟨[]⟩, 0, 20⟩, samplePaychState)
  loadAccount _ := .ok (.bls [1])
  signingBytes _ := .ok []
  verify _ _ _ := .ok ()
  dump sv :=
    if sv = sampleVoucher 0 2 8 then .ok [0] else if sv = sampleVoucher 1 1 5 then .ok [1]
    else .error (.new "too long")
  dump_inj {sv sv' b} h h' := by
    split_ifs at h h' <;> cases h <;> simp_all
  write _ := .ok ()

def samplePaychCalls : List PaychCall :=
  [.track (.id 200) .inbound, .addVoucher (.id 200) (sampleVoucher 0 2 8) [] 0,
    .addVoucher (.id 200) (sampleVoucher 1 1 5) [] 2,
    .addVoucher (.id 200) (sampleVoucher 0 2 8) [7] 0]

def sampleBooked : ChannelInfo :=
  ⟨.id 200, .bls [1], .bls [1], .inbound,
    [⟨sampleVoucher 0 2 8, [7]⟩, ⟨sampleVoucher 1 1 5, []⟩], 2⟩

/-- Two vouchers are accepted and one is added again with a proof: lane 0 has grown by 5, and the
lanes are covered. -/
theorem samplePaych_booked :
    (samplePaychCalls.foldl samplePaychManager.step .empty).channels (.id 200) = some sampleBooked ∧
      samplePaychManager.deltas (.id 200) 0 .empty samplePaychCalls = 8 - 3 ∧
      (∑ᶠ lane, bestAmount samplePaychState
        (sampleBooked.vouchers.map VoucherInfo.voucher) lane) + 1 ≤ 20 := by
  have hci : (samplePaychCalls.foldl samplePaychManager.step .empty).channels (.id 200) =
      some sampleBooked := rfl
  obtain ⟨act, st, hload, -, hsolvent, hdeltas, -⟩ :=
    vouchers_booked samplePaychManager samplePaychCalls (.id 200) sampleBooked hci
  obtain ⟨rfl, rfl⟩ := Prod.mk.inj (Except.ok.inj hload)
  exact ⟨hci, hdeltas 0, hsolvent (by decide)⟩

end Lotus

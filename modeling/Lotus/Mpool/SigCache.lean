import Lotus.Mpool.MessagePool

/-!
# Histories of the signature caches

Any sequence of calls to `VerifyMsgSig`, `addLocked` and `RecoverSig`, with entries evicted from the
caches in between, on a pool that starts with empty caches.
-/

namespace Lotus

open List

variable (mpe : MpoolEnv)

/-- A call, or the eviction of the entries that are not to be kept. -/
inductive Call where
  | verifyMsgSig (m : SignedMessage)
  | addLocked (m : SignedMessage)
  | recoverSig (msg : Message)
  | evict (keepKey : Bytes → Bool) (keepSig : Cid → Bool)

/-- What a call returns. -/
inductive Answer where
  | verified (err : Except NodeErr Unit)
  | added (err : Except NodeErr Unit)
  | recovered (m : Option SignedMessage)
  | evicted

def MessagePool.evict (keepKey : Bytes → Bool) (keepSig : Cid → Bool) (mp : MessagePool) :
    MessagePool :=
  { mp with
    sigValCache := mp.sigValCache.filter keepKey
    blsSigCache := fun c => if keepSig c then mp.blsSigCache c else none }

namespace Call

def message : Call → Option Message
  | verifyMsgSig m | addLocked m => some m.message
  | recoverSig msg => some msg
  | evict _ _ => none

def run : Call → MessagePool → Answer × MessagePool
  | verifyMsgSig m, mp =>
    (.verified (Lotus.verifyMsgSig mpe m mp).1, (Lotus.verifyMsgSig mpe m mp).2)
  | addLocked m, mp => (.added (Lotus.addLocked mpe m mp).1, (Lotus.addLocked mpe m mp).2)
  | recoverSig msg, mp => (.recovered (Lotus.recoverSig mpe mp msg), mp)
  | evict keepKey keepSig, mp => (.evicted, mp.evict keepKey keepSig)

def Sound : Call → Answer → Prop
  | verifyMsgSig m, .verified (.ok ()) => Verifies mpe m
  | recoverSig _, .recovered (some m) => Verifies mpe m
  | _, _ => True

end Call

def history : List Call → MessagePool → List (Call × Answer)
  | [], _ => []
  | call :: calls, mp => (call, (call.run mpe mp).1) :: history calls (call.run mpe mp).2

/-! ## Where cache entries come from -/

/-- The entries of the caches after the calls `pre`. -/
structure CacheInv (pre : List Call) (mp : MessagePool) : Prop where
  sigValCache : ∀ key ∈ mp.sigValCache, ∃ m, .verifyMsgSig m ∈ pre ∧ sigCacheKey mpe m = .ok key ∧
    Verifies mpe m
  blsSigCache : ∀ c sig, mp.blsSigCache c = some sig → ∃ m, .addLocked m ∈ pre ∧
    m.signature.type = .bls ∧ mpe.codec.messageCid m.message = c ∧ m.signature = sig

variable {mpe} {pre : List Call} {mp : MessagePool}

lemma CacheInv.mono {pre' : List Call} (hsub : pre ⊆ pre')
    (h : CacheInv mpe pre mp) : CacheInv mpe pre' mp where
  sigValCache key hmem := by
    grind [h.sigValCache]
  blsSigCache c sig hsig := by
    grind [h.blsSigCache]

lemma CacheInv.of_sameCaches {mp' : MessagePool} (h : CacheInv mpe pre mp)
    (hsame : SameCaches mp mp') : CacheInv mpe pre mp' where
  sigValCache key hmem := h.sigValCache key (hsame.2 ▸ hmem)
  blsSigCache c sig hsig := h.blsSigCache c sig (hsame.1 ▸ hsig)

variable {m : SignedMessage}

lemma CacheInv.verifyMsgSig (h : CacheInv mpe pre mp) (hcall : .verifyMsgSig m ∈ pre) :
    CacheInv mpe pre (verifyMsgSig mpe m mp).2 := by
  obtain ⟨hbls, hkeys⟩ : (Lotus.verifyMsgSig mpe m mp).2.blsSigCache = mp.blsSigCache ∧ _ :=
    verifyMsgSig_caches m mp
  refine ⟨fun key hmem => ?_, fun c sig hsig => h.blsSigCache c sig (hbls ▸ hsig)⟩
  grind [h.sigValCache]

lemma CacheInv.cacheBlsSig (h : CacheInv mpe pre mp)
    (hcall : .addLocked m ∈ pre) : CacheInv mpe pre (cacheBlsSig mpe m mp) := by
  unfold Lotus.cacheBlsSig
  split_ifs with hbls
  · refine ⟨h.sigValCache, fun c sig hsig => ?_⟩
    have hcid : m.cid mpe.codec = mpe.codec.messageCid m.message := if_pos hbls
    have hcached : Function.update mp.blsSigCache (m.cid mpe.codec) (some m.signature) c =
        some sig := hsig
    rcases eq_or_ne c (m.cid mpe.codec) with rfl | hne
    · grind
    · grind [Function.update_apply, h.blsSigCache]
  · exact h

lemma CacheInv.evict (h : CacheInv mpe pre mp) (keepKey : Bytes → Bool) (keepSig : Cid → Bool) :
    CacheInv mpe pre (mp.evict keepKey keepSig) where
  sigValCache key hmem := h.sigValCache key (mem_filter.mp hmem).1
  blsSigCache c sig hsig := by
    have hkept : (if keepSig c then mp.blsSigCache c else none) = some sig := hsig
    split_ifs at hkept
    exact h.blsSigCache c sig hkept

lemma Call.run_cacheInv (h : CacheInv mpe pre mp)
    (call : Call) : CacheInv mpe (pre ++ [call]) (call.run mpe mp).2 := by
  have hcall : call ∈ pre ++ [call] := mem_append_right pre (mem_singleton_self call)
  have hinv : CacheInv mpe (pre ++ [call]) mp := h.mono (subset_append_left pre [call])
  cases call with
  | verifyMsgSig m => exact hinv.verifyMsgSig hcall
  | addLocked m => exact (hinv.cacheBlsSig hcall).of_sameCaches (addLocked_sameCaches m mp)
  | recoverSig msg => exact hinv
  | evict keepKey keepSig => exact hinv.evict keepKey keepSig

/-! ## When the answers are right -/

structure CidsSeparate (mpe : MpoolEnv) (calls : List Call) : Prop where
  message_inj : ∀ call ∈ calls, ∀ call' ∈ calls, ∀ msg msg', call.message = some msg →
    call'.message = some msg' → mpe.codec.messageCid msg = mpe.codec.messageCid msg' → msg = msg'
  signed_inj : ∀ m m', .verifyMsgSig m ∈ calls → .verifyMsgSig m' ∈ calls →
    mpe.codec.signedCid m = mpe.codec.signedCid m' → m = m'
  length_eq : ∃ n, (∀ msg, (mpe.codec.messageCid msg).bytes.length = n) ∧
    ∀ m, (mpe.codec.signedCid m).bytes.length = n

/-- `addLocked` is called only with BLS signatures that verify, and `VerifyMsgSig` is not called
with a BLS signature that differs in its first 64 bytes only from a signature of the message that
verified. -/
structure Careful (mpe : MpoolEnv) (calls : List Call) : Prop where
  added : ∀ m, .addLocked m ∈ calls → m.signature.type = .bls → Verifies mpe m
  separated : ∀ pre m post, calls = pre ++ .verifyMsgSig m :: post →
    ∀ m', .verifyMsgSig m' ∈ pre → Verifies mpe m' →
      m.signature.type = .bls → m'.signature.type = .bls → m.message = m'.message →
      m.signature.data.drop 64 = m'.signature.data.drop 64 →
      m.signature.data.take 64 = m'.signature.data.take 64

lemma sigCacheKey_ok {key : Bytes} (h : sigCacheKey mpe m = .ok key) :
    (m.signature.type = .bls ∧ 90 ≤ m.signature.data.length ∧
        key = (mpe.codec.messageCid m.message).bytes ++ m.signature.data.drop 64) ∨
      key = (mpe.codec.signedCid m).bytes := by
  unfold sigCacheKey at h
  split at h
  case h_1 htype =>
    split_ifs at h with hshort
    cases h
    rw [SignedMessage.cid, if_pos htype]
    exact Or.inl ⟨htype, Nat.not_lt.mp hshort, rfl⟩
  case h_2 htype =>
    cases h
    have hsecp : m.signature.type ≠ .bls := by grind
    rw [SignedMessage.cid, if_neg hsecp]
    exact Or.inr rfl
  case h_3 => cases h

lemma sigCacheKey_eq {m' : SignedMessage} {key : Bytes} {n : ℕ}
    (hmessage : ∀ msg, (mpe.codec.messageCid msg).bytes.length = n)
    (hsigned : ∀ m, (mpe.codec.signedCid m).bytes.length = n) (h : sigCacheKey mpe m = .ok key)
    (h' : sigCacheKey mpe m' = .ok key) :
    (m.signature.type = .bls ∧ m'.signature.type = .bls ∧
        mpe.codec.messageCid m.message = mpe.codec.messageCid m'.message ∧
        m.signature.data.drop 64 = m'.signature.data.drop 64) ∨
      mpe.codec.signedCid m = mpe.codec.signedCid m' := by
  rcases sigCacheKey_ok h with ⟨hbls, hlong, rfl⟩ | rfl <;>
    rcases sigCacheKey_ok h' with ⟨hbls', hlong', hkey⟩ | hkey
  · obtain ⟨hcid, hdata⟩ := append_inj hkey (by rw [hmessage, hmessage])
    exact Or.inl ⟨hbls, hbls', congrArg Cid.mk hcid, hdata⟩
  -- a BLS key is longer than a CID
  · grind
  · grind
  · exact Or.inr (congrArg Cid.mk hkey)

variable {calls post : List Call}

lemma Careful.verifies_of_cached (hcareful : Careful mpe calls) (hcids : CidsSeparate mpe calls)
    (hcalls : calls = pre ++ .verifyMsgSig m :: post) (hinv : CacheInv mpe pre mp) {key : Bytes}
    (hkey : sigCacheKey mpe m = .ok key) (hcached : key ∈ mp.sigValCache) : Verifies mpe m := by
  obtain ⟨m', hcall', hkey', hverifies⟩ := hinv.sigValCache key hcached
  have hmem : .verifyMsgSig m ∈ calls := by grind
  have hmem' : .verifyMsgSig m' ∈ calls := by grind
  obtain ⟨n, hmessage, hsigned⟩ := hcids.length_eq
  rcases sigCacheKey_eq hmessage hsigned hkey hkey' with ⟨hbls, hbls', hcid, hdrop⟩ | hcid
  · have hmsg : m.message = m'.message := hcids.message_inj _ hmem _ hmem' _ _ rfl rfl hcid
    have htake := hcareful.separated pre m post hcalls m' hcall' hverifies hbls hbls' hmsg hdrop
    have hdata : m.signature.data = m'.signature.data := by
      rw [← take_append_drop 64 m.signature.data, htake, hdrop, take_append_drop]
    have hsig : m.signature = m'.signature := by
      rcases hm : m.signature with ⟨type, data⟩
      rcases hm' : m'.signature with ⟨type', data'⟩
      grind
    rwa [Verifies, hsig, hmsg]
  · rwa [hcids.signed_inj m m' hmem hmem' hcid]

lemma Careful.verifies_of_recovered (hcareful : Careful mpe calls)
    (hcids : CidsSeparate mpe calls) {msg : Message}
    (hcalls : calls = pre ++ .recoverSig msg :: post) (hinv : CacheInv mpe pre mp)
    (hrecovered : recoverSig mpe mp msg = some m) : Verifies mpe m := by
  obtain ⟨sig, hsig, rfl⟩ := Option.map_eq_some_iff.mp hrecovered
  obtain ⟨m', hcall', hbls, hcid, rfl⟩ := hinv.blsSigCache _ sig hsig
  have hmem : .recoverSig msg ∈ calls := by grind
  have hmem' : .addLocked m' ∈ calls := by grind
  have hmsg : m'.message = msg := hcids.message_inj _ hmem' _ hmem _ _ rfl rfl hcid
  rw [← hmsg]
  exact hcareful.added m' hmem' hbls

lemma Careful.run_sound (hcareful : Careful mpe calls) (hcids : CidsSeparate mpe calls)
    {call : Call} (hcalls : calls = pre ++ call :: post) (hinv : CacheInv mpe pre mp) :
    call.Sound mpe (call.run mpe mp).1 := by
  cases call with
  | verifyMsgSig m =>
    rcases hres : (verifyMsgSig mpe m mp).1 with err | u
    · rw [Call.run, hres]
      trivial
    · rw [Call.run, hres]
      obtain ⟨key, hkey, hcached | hverifies⟩ := verifyMsgSig_ok hres
      · exact hcareful.verifies_of_cached hcids hcalls hinv hkey hcached
      · exact hverifies
  | recoverSig msg =>
    rcases hres : recoverSig mpe mp msg with - | m
    · rw [Call.run, hres]
      trivial
    · rw [Call.run, hres]
      exact hcareful.verifies_of_recovered hcids hcalls hinv hres
  | addLocked m => trivial
  | evict keepKey keepSig => trivial

lemma Careful.history_suffix_sound (hcareful : Careful mpe calls) (hcids : CidsSeparate mpe calls)
    (hcalls : calls = pre ++ post) (hinv : CacheInv mpe pre mp) {call : Call} {answer : Answer}
    (hmem : (call, answer) ∈ history mpe post mp) : call.Sound mpe answer := by
  -- by induction on the calls to come, over every pool that the calls before may have left
  induction post generalizing pre mp with
  | nil => cases hmem
  | cons next post ih =>
    rcases mem_cons.mp hmem with hnow | hlater
    · obtain ⟨rfl, rfl⟩ := Prod.mk.inj hnow
      exact hcareful.run_sound hcids hcalls hinv
    · refine ih ?_ (next.run_cacheInv hinv) hlater
      rw [hcalls, append_assoc, singleton_append]

/-- In every careful history on a pool with empty caches, `VerifyMsgSig` returns nil only for
messages that verify, and `RecoverSig` returns only such. -/
theorem history_sound (hcids : CidsSeparate mpe calls) (hcareful : Careful mpe calls)
    (hkeys : mp.sigValCache = []) (hsigs : ∀ c, mp.blsSigCache c = none) (call : Call)
    (answer : Answer) (hmem : (call, answer) ∈ history mpe calls mp) : call.Sound mpe answer := by
  have hinv : CacheInv mpe [] mp := by
    refine ⟨fun key hkey => ?_, fun c sig hsig => ?_⟩ <;> simp_all
  exact hcareful.history_suffix_sound hcids rfl hinv hmem

def sampleMpoolEnv : MpoolEnv where
  codec := ⟨fun m => ⟨[m.nonce.toUInt8, 0]⟩, fun _ => 100,
    fun m => ⟨[m.message.nonce.toUInt8, m.signature.data.headD 0 + 1]⟩, fun _ => 200⟩
  crypto := ⟨fun sig _ _ => sig.data = List.replicate 96 1, fun _ _ _ => true⟩
  maxTxPoolSizeHi := 30000
  putMessage _ := .ok ()

def sampleEmptyPool : MessagePool := ⟨∅, 0, false, fun _ => none, []⟩

def sampleBlsMessage (byte : UInt8) : SignedMessage where
  message := ⟨0, .id 101, .bls [1], 0, some 1, some 1, 1000000, 0, []⟩
  signature := ⟨.bls, List.replicate 64 byte ++ List.replicate 32 1⟩

def sampleCalls : List Call :=
  [.verifyMsgSig (sampleBlsMessage 1), .addLocked (sampleBlsMessage 1),
    .evict (fun _ => false) (fun _ => true), .verifyMsgSig (sampleBlsMessage 1),
    .recoverSig (sampleBlsMessage 1).message]

theorem sampleCalls_sound : sampleEmptyPool.sigValCache = [] ∧ ∀ call answer,
    (call, answer) ∈ history sampleMpoolEnv sampleCalls sampleEmptyPool →
      call.Sound sampleMpoolEnv answer := by
  have hmessage : ∀ call ∈ sampleCalls, ∀ msg, call.message = some msg →
      msg = (sampleBlsMessage 1).message := by
    simp [sampleCalls, Call.message]
  have hverify : ∀ m, .verifyMsgSig m ∈ sampleCalls → m = sampleBlsMessage 1 := by
    simp [sampleCalls]
  have hadd : ∀ m, .addLocked m ∈ sampleCalls → m = sampleBlsMessage 1 := by
    simp [sampleCalls]
  refine ⟨rfl, history_sound ⟨?_, ?_, 2, fun _ => rfl, fun _ => rfl⟩ ⟨?_, ?_⟩ rfl fun _ => rfl⟩
  · grind
  · grind
  · intro m hm _
    rw [hadd m hm]
    decide
  · grind

def sampleForgedCalls : List Call :=
  [.verifyMsgSig (sampleBlsMessage 1), .verifyMsgSig (sampleBlsMessage 0),
    .addLocked (sampleBlsMessage 0), .recoverSig (sampleBlsMessage 0).message]

/-- The second signature passes, goes into the pool, and is what is recovered for the message,
although it does not verify and no CIDs collide. -/
theorem forged_signature_passes :
    CidsSeparate sampleMpoolEnv sampleForgedCalls ∧ ¬ Verifies sampleMpoolEnv (sampleBlsMessage 0) ∧
      history sampleMpoolEnv sampleForgedCalls sampleEmptyPool =
        [(.verifyMsgSig (sampleBlsMessage 1), .verified (.ok ())),
          (.verifyMsgSig (sampleBlsMessage 0), .verified (.ok ())),
          (.addLocked (sampleBlsMessage 0), .added (.ok ())),
          (.recoverSig (sampleBlsMessage 0).message, .recovered (some (sampleBlsMessage 0)))] := by
  have hmessage : ∀ call ∈ sampleForgedCalls, ∀ msg, call.message = some msg →
      msg = (sampleBlsMessage 0).message := by
    simp [sampleForgedCalls, Call.message, sampleBlsMessage]
  have hverify : ∀ m, .verifyMsgSig m ∈ sampleForgedCalls →
      m = sampleBlsMessage 1 ∨ m = sampleBlsMessage 0 := by
    simp [sampleForgedCalls]
  have hcid : sampleMpoolEnv.codec.signedCid (sampleBlsMessage 1) ≠
      sampleMpoolEnv.codec.signedCid (sampleBlsMessage 0) := by decide
  refine ⟨⟨?_, ?_, 2, fun _ => rfl, fun _ => rfl⟩, by decide, rfl⟩
  · grind
  · grind

end Lotus

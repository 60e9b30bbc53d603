import Lotus.State.Coherent

/-!
# The address cache answers what the init actor answers

Every layer has an address cache of its own, which lookups fill at any depth.
-/

namespace Lotus

open Layers List Act

variable {t : StateTree}

/-- The map of the init actor keeps its entries when it assigns an ID to `addr`. -/
def InitActor.Gains (init : InitActor) (head : Cid) (addr : Address) : Prop :=
  ∀ ncid id, init.mapAddressToNewID head addr = .ok (ncid, id) →
    ∀ a r, init.resolveAddress head a = .ok r → init.resolveAddress ncid a = .ok r

/-- An address that gets an ID resolves to it from then on. -/
def InitActor.Assigns (init : InitActor) : Prop :=
  ∀ head addr ncid id, ¬addr.IsID → init.mapAddressToNewID head addr = .ok (ncid, id) →
    ∀ h : addr ≠ .undef, init.resolveAddress ncid addr = .ok ⟨id, h⟩

inductive ResolveOp where
  | registerNewAddress (addr : Address)
  | lookupID (addr : Address)
  | getActor (addr : Address)
  | setActor (addr : Address) (act : Actor)
  | deleteActor (addr : Address)
  | snapshot
  | revert
  | clearSnapshot

/-- The number of open snapshots after the calls, with `d` open before them; `none` if they close
one more than that. -/
def openSnapshots : ℕ → List ResolveOp → Option ℕ
  | d, [] => some d
  | d, .snapshot :: ops => openSnapshots (d + 1) ops
  | 0, .clearSnapshot :: _ => none
  | d + 1, .clearSnapshot :: ops => openSnapshots d ops
  | d, _ :: ops => openSnapshots d ops

namespace StateTree

variable (init : InitActor)

/-- One call on the tree; `none` is the index panic of `ClearSnapshot` on a single layer. -/
def stepResolve : ResolveOp → StateTree → Option StateTree
  | .registerNewAddress addr, t => some (registerNewAddress init addr t).2
  | .lookupID addr, t => some (lookupID init addr t).2
  | .getActor addr, t => some (getActor init addr t).2
  | .setActor addr act, t => some (setActor init addr act t).2
  | .deleteActor addr, t => some (deleteActor init addr t).2
  | .snapshot, t => some t.snapshot
  | .revert, t => some t.revert
  | .clearSnapshot, t => t.clearSnapshot

def runResolve : List ResolveOp → StateTree → Option StateTree
  | [], t => some t
  | op :: ops, t => (stepResolve init op t).bind (runResolve ops)

/-- A call that is made as the VM makes it: a registration adds to the map of the init actor, no
write is to the init actor itself, and `ClearSnapshot` closes an open snapshot. -/
def Proper : ResolveOp → StateTree → Prop
  | .registerNewAddress addr, t =>
    ∀ act, t.view initActorAddr = some act → init.Gains act.head addr
  | .setActor addr _, t | .deleteActor addr, t => resolveIn init t.view addr ≠ .ok initActorAddr
  | .clearSnapshot, t => t.below ≠ []
  | .lookupID _, _ | .getActor _, _ | .snapshot, _ | .revert, _ => True

/-- Every call of a sequence is made as the VM makes it. -/
def ProperRun : List ResolveOp → StateTree → Prop
  | [], _ => True
  | op :: ops, t => Proper init op t ∧ ∀ t', stepResolve init op t = some t' → ProperRun ops t'

def AllCoherent (t : StateTree) : Prop :=
  ∀ top below, (top :: below) <:+ t.layers → Coherent init ⟨t.root, top, below⟩

variable {init}

namespace AllCoherent

variable {t : StateTree}

lemma coherent (h : AllCoherent init t) : Coherent init t := h t.top t.below (suffix_refl _)

lemma of_load (init : InitActor) (root : Hamt) : AllCoherent init (loadStateTree root) := by
  intro top below hsuffix
  have hlayers : top :: below = [newStateSnapLayer] :=
    (suffix_cons_iff.mp hsuffix).resolve_right fun hnil =>
      absurd (suffix_nil.mp hnil) (cons_ne_nil _ _)
  cases hlayers
  exact coherent_loadStateTree init root

lemma of_top {t' : StateTree} (h : AllCoherent init t) (hroot : t'.root = t.root)
    (hbelow : t'.below = t.below) (hcoherent : Coherent init t') : AllCoherent init t' := by
  intro top below hsuffix
  rcases suffix_cons_iff.mp hsuffix with heq | hsuffix
  · cases heq
    exact hcoherent
  · rw [hroot]
    rw [hbelow] at hsuffix
    exact h top below (hsuffix.trans (suffix_cons _ _))

lemma tail {next : StateSnapLayer} {rest : List StateSnapLayer} (h : AllCoherent init t)
    (hbelow : t.below = next :: rest) :
    AllCoherent init ⟨t.root, next, rest⟩ := by
  intro top below hsuffix
  have hlayers : t.layers = t.top :: next :: rest := by rw [layers, hbelow]
  refine h top below (hsuffix.trans ?_)
  rw [hlayers]
  exact suffix_cons _ _

end AllCoherent

variable {t' : StateTree}

lemma Coherent.congr (h : Coherent init t)
    (hview : t'.view initActorAddr = t.view initActorAddr)
    (hcache : t'.resolveAddress = t.resolveAddress) : Coherent init t' := by
  intro addr id hid
  rw [hcache] at hid
  rw [hview]
  exact h addr id hid

lemma AllCoherent.snapshot (h : AllCoherent init t) :
    AllCoherent init t.snapshot := by
  intro top below hsuffix
  rcases suffix_cons_iff.mp hsuffix with heq | hsuffix
  · cases heq
    exact h.coherent.congr (congrFun (view_snapshot t) _) (resolveAddress_snapshot t)
  · exact h top below hsuffix

lemma AllCoherent.revert (h : AllCoherent init t) : AllCoherent init t.revert := by
  rcases hbelow : t.below with - | ⟨next, rest⟩
  · have hload : t.revert = loadStateTree t.root := by
      rw [StateTree.revert, hbelow, loadStateTree]
    rw [hload]
    exact .of_load init t.root
  · have hopen : t.revert = (⟨t.root, next, rest⟩ : StateTree).snapshot := by
      rw [StateTree.revert, hbelow]
      rfl
    rw [hopen]
    exact (h.tail hbelow).snapshot

lemma AllCoherent.clearSnapshot (h : AllCoherent init t) (hopen : t.below ≠ []) :
    ∃ t', t.clearSnapshot = some t' ∧ AllCoherent init t' := by
  obtain ⟨next, rest, hbelow⟩ := exists_cons_of_ne_nil hopen
  obtain ⟨t', hclear, hroot, hrest, hview, hcache⟩ := clearSnapshot_spec hbelow
  refine ⟨t', hclear, (h.tail hbelow).of_top hroot hrest ?_⟩
  exact h.coherent.congr (congrFun hview _) hcache

lemma Coherent.snapsWrite (h : Coherent init t) {id : Address}
    (hid : id ≠ initActorAddr) (op : StreeOp) : Coherent init (t.snapsWrite id op) := by
  refine h.congr ?_ (resolveAddress_snapsWrite t id op)
  rw [view_snapsWrite, Function.update_of_ne hid.symm]

lemma AllCoherent.lookupID (h : AllCoherent init t) (addr : Address) :
    AllCoherent init (lookupID init addr t).2 :=
  have hreads := lookupID_reads init addr t
  h.of_top hreads.root_eq hreads.below_eq (lookupID_of_coherent h.coherent addr).2

lemma AllCoherent.getActor (h : AllCoherent init t) (addr : Address) :
    AllCoherent init (getActor init addr t).2 :=
  have hreads := getActor_reads init addr t
  h.of_top hreads.root_eq hreads.below_eq (getActor_of_coherent h.coherent addr).2

variable {addr : Address}

lemma AllCoherent.setActor (h : AllCoherent init t)
    (haddr : resolveIn init t.view addr ≠ .ok initActorAddr) (act : Actor) :
    AllCoherent init (setActor init addr act t).2 := by
  have hlookup := h.lookupID addr
  have hanswer := (lookupID_of_coherent h.coherent addr).1
  rcases hrun : StateTree.lookupID init addr t with ⟨err | id, t'⟩
  · rw [hrun] at hlookup
    rwa [StateTree.setActor, bind_of_error (mapError_of_error hrun)]
  · rw [hrun] at hlookup hanswer
    have hid : id ≠ initActorAddr := by grind
    rw [StateTree.setActor, bind_of_ok (mapError_of_ok hrun)]
    exact hlookup.of_top rfl rfl (hlookup.coherent.snapsWrite hid _)

lemma AllCoherent.deleteActor (h : AllCoherent init t)
    (haddr : resolveIn init t.view addr ≠ .ok initActorAddr) :
    AllCoherent init (deleteActor init addr t).2 := by
  by_cases hundef : addr = .undef
  · rwa [StateTree.deleteActor, if_pos hundef]
  have hlookup := h.lookupID addr
  have hanswer := (lookupID_of_coherent h.coherent addr).1
  rcases hrun : StateTree.lookupID init addr t with ⟨err | id, t'⟩
  · rw [hrun] at hlookup
    rw [StateTree.deleteActor, if_neg hundef]
    refine (congrArg (AllCoherent init ∘ Prod.snd) (bind_of_error (mapError_of_error hrun))).mpr ?_
    exact hlookup
  · rw [hrun] at hlookup hanswer
    have hid : id ≠ initActorAddr := by grind
    have hget := hlookup.getActor id
    have hdelete : StateTree.deleteActor init addr t =
        (StateTree.getActor init id >>= fun _ => modify (·.snapsWrite id .del)) t' := by
      rw [StateTree.deleteActor, if_neg hundef]
      exact bind_of_ok (mapError_of_ok hrun)
    rcases hrun' : StateTree.getActor init id t' with ⟨err | act, t''⟩
    · grind [bind_of_error]
    · rw [hrun'] at hget
      rw [hdelete, bind_of_ok hrun']
      exact hget.of_top rfl rfl (hget.coherent.snapsWrite hid _)

lemma Coherent.gains (h : Coherent init t) {act : Actor} {ncid : Cid}
    {id : UInt64} (hview : t.view initActorAddr = some act) (hgains : init.Gains act.head addr)
    (hmap : init.mapAddressToNewID act.head addr = .ok (ncid, id)) :
    Coherent init (t.snapsWrite initActorAddr (.put { act with head := ncid })) := by
  intro a i ha
  rw [resolveAddress_snapsWrite] at ha
  obtain ⟨act', hne, hact', hres⟩ := h a i ha
  rw [hview] at hact'
  cases hact'
  refine ⟨{ act with head := ncid }, hne, ?_, hgains ncid id hmap a _ hres⟩
  rw [view_snapsWrite, Function.update_self, Write.read_put]

lemma AllCoherent.registerNewAddress_cases (h : AllCoherent init t)
    (addr : Address) :
    (∃ err t', registerNewAddress init addr t = (.error err, t') ∧ AllCoherent init t') ∨
    (∃ act ncid id t', t.view initActorAddr = some act ∧ t'.view initActorAddr = some act ∧
      init.mapAddressToNewID act.head addr = .ok (ncid, id) ∧ AllCoherent init t' ∧
      registerNewAddress init addr t =
        (.ok (.id id), t'.snapsWrite initActorAddr (.put { act with head := ncid }))) := by
  have hget := h.getActor initActorAddr
  rcases hrun : StateTree.getActor init initActorAddr t with ⟨err | act, t'⟩
  · rw [hrun] at hget
    exact Or.inl ⟨err, t', bind_of_error hrun, hget⟩
  · rw [hrun] at hget
    obtain ⟨id, hreads, hres, hview⟩ := getActor_ok hrun
    have hinit : Resolves init t' initActorAddr initActorAddr :=
      Resolves.of_isID init (Address.isID_id 1) t'
    rw [hinit.unique hres] at hview
    rcases hmap : init.mapAddressToNewID act.head addr with err | ⟨ncid, id⟩
    · refine Or.inl ⟨err, t', ?_, hget⟩
      rw [registerNewAddress, mutateActor, bind_of_ok hrun, hmap]
      rfl
    · refine Or.inr ⟨act, ncid, id, t', hview, hreads.view_eq ▸ hview, hmap, hget, ?_⟩
      rw [registerNewAddress, mutateActor, bind_of_ok hrun, hmap]
      rfl

lemma AllCoherent.registerNewAddress (h : AllCoherent init t)
    (hgains : ∀ act, t.view initActorAddr = some act → init.Gains act.head addr) :
    AllCoherent init (registerNewAddress init addr t).2 := by
  rcases h.registerNewAddress_cases addr with
    ⟨err, t', hrun, ht'⟩ | ⟨act, ncid, id, t', hview, hview', hmap, ht', hrun⟩
  · rwa [hrun]
  · rw [hrun]
    exact ht'.of_top rfl rfl (ht'.coherent.gains hview' (hgains act hview) hmap)

/-! ## Runs -/

lemma stepResolve_coherent {op : ResolveOp} (h : AllCoherent init t)
    (hproper : Proper init op t) : ∃ t', stepResolve init op t = some t' ∧ AllCoherent init t' := by
  cases op with
  | registerNewAddress addr => exact ⟨_, rfl, h.registerNewAddress hproper⟩
  | lookupID addr => exact ⟨_, rfl, h.lookupID addr⟩
  | getActor addr => exact ⟨_, rfl, h.getActor addr⟩
  | setActor addr act => exact ⟨_, rfl, h.setActor hproper act⟩
  | deleteActor addr => exact ⟨_, rfl, h.deleteActor hproper⟩
  | snapshot => exact ⟨_, rfl, h.snapshot⟩
  | revert => exact ⟨_, rfl, h.revert⟩
  | clearSnapshot => exact h.clearSnapshot hproper

variable {ops : List ResolveOp}

lemma runResolve_coherent (h : AllCoherent init t)
    (hproper : ProperRun init ops t) :
    ∃ t', runResolve init ops t = some t' ∧ AllCoherent init t' := by
  induction ops generalizing t with
  | nil => exact ⟨t, rfl, h⟩
  | cons op ops ih =>
    obtain ⟨t1, hstep, h1⟩ := stepResolve_coherent h hproper.1
    obtain ⟨t2, hrun, h2⟩ := ih h1 (hproper.2 t1 hstep)
    exact ⟨t2, by rw [runResolve, hstep, Option.bind_some, hrun], h2⟩

lemma stepResolve_below {op : ResolveOp} (hstep : stepResolve init op t = some t')
    (hsnapshot : op ≠ .snapshot) (hclear : op ≠ .clearSnapshot) :
    t'.root = t.root ∧ t'.below = t.below := by
  cases op with
  | registerNewAddress addr =>
    cases hstep
    rcases StateTree.registerNewAddress_cases init addr t with
      ⟨err, u, hrun, hu⟩ | ⟨id, ncid, u, act, hu, -, -, hrun⟩
    · rw [hrun]
      exact ⟨hu.root_eq, hu.below_eq⟩
    · rw [hrun]
      exact ⟨hu.root_eq, hu.below_eq⟩
  | lookupID addr =>
    cases hstep
    have hreads := lookupID_reads init addr t
    exact ⟨hreads.root_eq, hreads.below_eq⟩
  | getActor addr =>
    cases hstep
    have hreads := getActor_reads init addr t
    exact ⟨hreads.root_eq, hreads.below_eq⟩
  | setActor addr act =>
    cases hstep
    rcases setActor_cases init addr act t with ⟨err, u, hrun, hu⟩ | ⟨id, u, -, hu, -, hrun⟩
    · rw [hrun]
      exact ⟨hu.root_eq, hu.below_eq⟩
    · rw [hrun]
      exact ⟨hu.root_eq, hu.below_eq⟩
  | deleteActor addr =>
    cases hstep
    rcases deleteActor_cases init addr t with ⟨err, u, hrun, hu⟩ | ⟨id, u, act, hu, -, -, hrun⟩
    · rw [hrun]
      exact ⟨hu.root_eq, hu.below_eq⟩
    · rw [hrun]
      exact ⟨hu.root_eq, hu.below_eq⟩
  | snapshot => cases hsnapshot rfl
  | revert =>
    cases hstep
    exact ⟨rfl, rfl⟩
  | clearSnapshot => cases hclear rfl

lemma runResolve_below {above under : List StateSnapLayer} {d : ℕ}
    (hbelow : t.below = above ++ under) (hopen : openSnapshots above.length ops = some d)
    (hrun : runResolve init ops t = some t') :
    t'.root = t.root ∧ ∃ above', above'.length = d ∧ t'.below = above' ++ under := by
  induction ops generalizing t above with
  | nil =>
    cases hrun
    cases hopen
    exact ⟨rfl, above, rfl, hbelow⟩
  | cons op ops ih =>
    rw [runResolve] at hrun
    obtain ⟨t1, hstep, hrun⟩ := Option.bind_eq_some_iff.mp hrun
    by_cases hsnapshot : op = .snapshot
    · subst hsnapshot
      cases hstep
      have hlayers : t.snapshot.below = (t.top :: above) ++ under := congrArg (t.top :: ·) hbelow
      exact ih (t := t.snapshot) hlayers hopen hrun
    by_cases hclear : op = .clearSnapshot
    · subst hclear
      rcases above with - | ⟨next, above⟩
      · cases hopen
      · obtain ⟨t2, hcleared, hroot, hrest, -, -⟩ := clearSnapshot_spec hbelow
        obtain rfl : t2 = t1 := Option.some.inj (hcleared.symm.trans hstep)
        rw [← hroot]
        exact ih hrest hopen hrun
    · obtain ⟨hroot, hsame⟩ := stepResolve_below hstep hsnapshot hclear
      rw [← hroot]
      refine ih (hsame.trans hbelow) ?_ hrun
      cases op with
      | snapshot => cases hsnapshot rfl
      | clearSnapshot => cases hclear rfl
      | _ => exact hopen

lemma view_revert_of_run (hopen : openSnapshots 0 ops = some 0)
    (hrun : runResolve init ops t.snapshot = some t') :
    t'.revert.view = t.view := by
  have hlayers : t.snapshot.below = [] ++ t.layers := rfl
  obtain ⟨hroot, above, habove, hbelow⟩ := runResolve_below hlayers hopen hrun
  rw [length_eq_zero_iff.mp habove] at hbelow
  have hbase : t'.base = t.base := by
    funext a
    rw [base, base, hroot]
    rfl
  rw [view_revert, hbelow, hbase]
  rfl

/-- On a tree that was freshly loaded and then used as the VM uses it, with snapshots, reverts and
registrations, `LookupID` answers for every address what the init actor visible in the tree answers.
-/
theorem lookupID_eq_resolveIn (hassigns : init.Assigns) (root : Hamt) {ops : List ResolveOp}
    (h : ProperRun init ops (loadStateTree root)) :
    ∃ t, runResolve init ops (loadStateTree root) = some t ∧
      (∀ addr, (lookupID init addr t).1 = resolveIn init t.view addr) ∧
      (∀ inner, ProperRun init inner t.snapshot → openSnapshots 0 inner = some 0 →
        ∃ t', runResolve init inner t.snapshot = some t' ∧
          ∀ addr, (lookupID init addr t'.revert).1 = (lookupID init addr t).1) ∧
      (∀ addr id t', Proper init (.registerNewAddress addr) t → ¬addr.IsID → addr ≠ .undef →
        registerNewAddress init addr t = (.ok id, t') → (lookupID init addr t').1 = .ok id) := by
  obtain ⟨t, hrun, ht⟩ := runResolve_coherent (.of_load init root) h
  have hanswer : ∀ addr, (lookupID init addr t).1 = resolveIn init t.view addr :=
    fun addr => (lookupID_of_coherent ht.coherent addr).1
  refine ⟨t, hrun, hanswer, fun inner hinner hopen => ?_,
    fun addr id t' hproper hid hundef hreg => ?_⟩
  · obtain ⟨t', hrun', ht'⟩ := runResolve_coherent ht.snapshot hinner
    refine ⟨t', hrun', fun addr => ?_⟩
    rw [hanswer addr, (lookupID_of_coherent ht'.revert.coherent addr).1,
      view_revert_of_run hopen hrun']
  · have ht' := ht.registerNewAddress hproper
    rcases ht.registerNewAddress_cases addr with
      ⟨err, u, hrun', -⟩ | ⟨act, ncid, i, u, -, -, hmap, -, hrun'⟩
    · rw [hrun'] at hreg
      cases hreg
    · rw [hreg] at hrun' ht'
      cases hrun'
      rw [(lookupID_of_coherent ht'.coherent addr).1, resolveIn, if_neg hid, view_snapsWrite,
        Function.update_self, Write.read_put]
      simp only [hassigns act.head addr ncid i hid hmap hundef]

def sampleRegistry : InitActor where
  resolveAddress head addr :=
    match addr with
    | .bls [k] =>
      if k ∈ head.bytes then .ok ⟨100 + UInt64.ofNat (head.bytes.idxOf k), nofun⟩
      else .error .actorNotFound
    | _ => .error .actorNotFound
  mapAddressToNewID head addr :=
    match addr with
    | .bls [k] =>
      if k ∈ head.bytes then .error (.other "registered")
      else .ok (⟨head.bytes ++ [k]⟩, 100 + UInt64.ofNat head.bytes.length)
    | _ => .error (.other "not a key address")

lemma sampleRegistry_map {head ncid : Cid} {id : UInt64}
    (h : sampleRegistry.mapAddressToNewID head addr = .ok (ncid, id)) :
    ∃ k, addr = .bls [k] ∧ k ∉ head.bytes ∧ ncid = ⟨head.bytes ++ [k]⟩ ∧
      id = 100 + UInt64.ofNat head.bytes.length := by
  simp only [sampleRegistry] at h
  split at h
  next k =>
    split_ifs at h with hk
    cases h
    exact ⟨k, rfl, hk, rfl, rfl⟩
  next => cases h

lemma sampleRegistry_gains (head : Cid) (addr : Address) : sampleRegistry.Gains head addr := by
  intro ncid id hmap a r ha
  obtain ⟨k, rfl, hk, rfl, rfl⟩ := sampleRegistry_map hmap
  simp only [sampleRegistry] at ha ⊢
  split at ha
  next j =>
    split_ifs at ha with hj
    cases ha
    simp only [mem_append, hj, true_or, if_true, idxOf_append_of_mem hj]
  next => cases ha

lemma sampleRegistry_assigns : sampleRegistry.Assigns := by
  intro head addr ncid id _ hmap hundef
  obtain ⟨k, rfl, hk, rfl, rfl⟩ := sampleRegistry_map hmap
  simp [sampleRegistry, idxOf_append_of_notMem hk]

def reregister : List ResolveOp :=
  [.snapshot, .registerNewAddress (.bls [1]), .lookupID (.bls [1]), .setActor (.bls [1])
    ⟨⟨[]⟩, ⟨[]⟩, 0, 10⟩, .revert, .getActor (.bls [1]), .clearSnapshot,
    .registerNewAddress (.bls [2]), .registerNewAddress (.bls [1])]

def registryRoot : Hamt := (∅ : Hamt).insert initActorAddr ⟨⟨[]⟩, ⟨[]⟩, 0, 0⟩

theorem reregister_answers : ProperRun sampleRegistry reregister (loadStateTree registryRoot) ∧
    ∃ t, runResolve sampleRegistry reregister (loadStateTree registryRoot) = some t ∧
      (∀ addr, (lookupID sampleRegistry addr t).1 = resolveIn sampleRegistry t.view addr) ∧
      (lookupID sampleRegistry (.bls [1]) t).1 = .ok (.id 101) := by
  have hproper : ProperRun sampleRegistry reregister (loadStateTree registryRoot) := by
    refine ⟨trivial, ?_⟩
    rintro t1 ⟨⟩
    refine ⟨fun _ _ => sampleRegistry_gains _ _, ?_⟩
    rintro t2 ⟨⟩
    refine ⟨trivial, ?_⟩
    rintro t3 ⟨⟩
    refine ⟨by unfold Proper; decide +kernel, ?_⟩
    rintro t4 ⟨⟩
    refine ⟨trivial, ?_⟩
    rintro t5 ⟨⟩
    refine ⟨trivial, ?_⟩
    rintro t6 ⟨⟩
    refine ⟨by unfold Proper; decide +kernel, fun t7 _ => ?_⟩
    refine ⟨fun _ _ => sampleRegistry_gains _ _, fun t8 _ => ?_⟩
    exact ⟨fun _ _ => sampleRegistry_gains _ _, fun t9 _ => trivial⟩
  obtain ⟨t, hrun, hanswer, -, -⟩ :=
    lookupID_eq_resolveIn sampleRegistry_assigns registryRoot hproper
  refine ⟨hproper, t, hrun, hanswer, ?_⟩
  have hid : (runResolve sampleRegistry reregister (loadStateTree registryRoot)).map
      (fun t => (lookupID sampleRegistry (.bls [1]) t).1) = some (.ok (.id 101)) := by
    decide +kernel
  rw [hrun] at hid
  exact Option.some.inj hid

end StateTree

end Lotus

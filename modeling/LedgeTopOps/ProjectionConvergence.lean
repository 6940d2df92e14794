import LedgeTopOps.EventProjection

namespace LedgeTopOps.EventProjection
open List StepRuns AtomicPrograms JsonTree
open Function (update_of_ne update_self update)

theorem milliseconds_mono (ordered : earlier ≤ later) : milliseconds earlier ≤ milliseconds later := by
  apply Rat.floor_monotone
  exact mul_le_mul_of_nonneg_right ordered (by norm_num)

theorem later_of_milliseconds (ordered : milliseconds earlier < milliseconds later) : earlier ≤ later := by
  by_contra reversed
  exact absurd (milliseconds_mono (le_of_lt (not_le.mp reversed))) (not_le.mpr ordered)

-- Identifiers are never reassigned, so what an event projects stays as it is.
def Extended (before after : SourceMap) : Prop := ∀ kind id localId, before kind id = some localId → after kind id = some localId

theorem Extended.trans (one : Extended first second) (two : Extended second third) :
    Extended first third := fun kind id localId found => two kind id localId (one kind id localId found)

theorem mapFields_extended {before after : SourceMap} (extended : Extended before after) (found : mapFields row before fields = .ok mapped) :
    mapFields row after fields = .ok mapped := by
  induction fields generalizing mapped with
  | nil => exact found
  | cons field rest ih =>
    obtain ⟨name,kind⟩ := field
    unfold mapFields at found ⊢
    cases id : externalId (row.lookup name) with
    | error =>
      rw [id] at found
      cases found
    | ok given =>
      cases others : mapFields row before rest with
      | error =>
        rw [id,others] at found
        cases found
      | ok =>
        rw [id,others] at found
        rw [ih others]
        cases given with
        | none => exact found
        | some external =>
          dsimp only at found ⊢
          cases known : before kind external with
          | none =>
            rw [known] at found
            cases found
          | some localId =>
            rw [known] at found
            rw [extended kind external localId known]
            exact found

theorem projectedRow_extended {before after : SourceMap} (extended : Extended before after) (found : projectedRow entity event before = .ok written) :
    projectedRow entity event after = .ok written := by
  unfold projectedRow mapProjectAlphaSourceRow at found ⊢
  cases mapped : mapFields (entity.row event) before entity.type.fields with
  | error =>
    rw [mapped] at found
    cases found
  | ok =>
    rw [mapped] at found
    rw [mapFields_extended extended mapped]
    exact found

section
variable {Hash : Type} (source : Source Hash)

def Accepted (hash : Hash) (s : Store Hash) : Prop :=
  ∃ receipt, s.receipts (source.body hash).eventId = some receipt ∧ receipt.payloadHash = hash

def Reached (hash : Hash) (s : Store Hash) : Prop :=
  ∃ marker, s.version = some marker ∧ milliseconds (source.body hash).sourceUpdatedAt ≤ milliseconds marker.sourceUpdatedAt

def Carried (marker : Version) (s : Store Hash) : Prop :=
  ∃ own last key written stored, Accepted source own s ∧ Accepted source last s ∧
    marker = ⟨(source.body own).sourceUpdatedAt,(source.body own).eventId⟩ ∧
    (last = own ∨ milliseconds (source.body own).sourceUpdatedAt < milliseconds (source.body last).sourceUpdatedAt) ∧
    projectedRow source.entity (source.body own) s.records = .ok (key,written) ∧
    projectedRow source.entity (source.body last) s.records = .ok (key,stored) ∧ s.rows key = some stored

structure Valid (s : Store Hash) : Prop where
  settled : ∀ hash receipt, s.receipts (source.body hash).eventId = some receipt → receipt.payloadHash = hash →
    receipt.status ≠ .pending → Reached source hash s
  answered : ∀ hash result, (hash,result) ∈ s.answers → Accepted source hash s ∧ Reached source hash s
  carried : ∀ marker, s.version = some marker → Carried source marker s

def Holds (name : Nat) (s : Store Hash) : Prop := ∃ lease, s.globalLease = some lease ∧ lease.holder = some name

structure Grows (s t : Store Hash) : Prop where
  records : Extended s.records t.records
  overtaken : ∀ other ∈ s.overtaken, other ∈ t.overtaken
  answers : ∀ answer ∈ s.answers, answer ∈ t.answers
  receipts : ∀ id receipt, s.receipts id = some receipt → ∃ later, t.receipts id = some later ∧
    later.payloadHash = receipt.payloadHash
  version : ∀ marker, s.version = some marker → ∃ later, t.version = some later ∧
    marker.sourceUpdatedAt ≤ later.sourceUpdatedAt

-- Beyond that, nobody writes the entity's row or marker while the lease is held.
structure Stays (name : Nat) (s t : Store Hash) : Prop where
  grows : Grows s t
  holds : Holds name t
  version : t.version = s.version
  rows : t.rows = s.rows

structure Relied (name : Nat) (s t : Store Hash) : Prop where
  grows : Grows s t
  held : Holds name s → name ∉ t.overtaken → Stays name s t

structure Keeps (name : Nat) (hash : Hash) (s t : Store Hash) : Prop where
  valid : Valid source t
  others : ∀ other, other ≠ name → Relied other s t
  own : ∀ id receipt, t.receipts id = some receipt → (∃ old, s.receipts id = some old ∧ old.payloadHash = receipt.payloadHash) ∨
    receipt.payloadHash = hash
end

section
variable {Hash : Type} {source : Source Hash} {hash : Hash} {s t u : Store Hash}

theorem Grows.rfl : Grows s s :=
  ⟨fun _ _ _ found => found,fun _ mem => mem,fun _ mem => mem,fun _ receipt found => ⟨receipt,found,Eq.refl _⟩, fun marker found => ⟨marker,found,le_refl _⟩⟩

theorem Grows.next (first : Grows s t) (second : Grows t u) : Grows s u where
  records := first.records.trans second.records
  overtaken other mem := second.overtaken other (first.overtaken other mem)
  answers answer mem := second.answers answer (first.answers answer mem)
  receipts id receipt found := by
    obtain ⟨middle,there,same⟩ := first.receipts id receipt found
    obtain ⟨later,last,still⟩ := second.receipts id middle there
    exact ⟨later,last,still.trans same⟩
  version marker found := by
    obtain ⟨middle,there,ordered⟩ := first.version marker found
    obtain ⟨later,last,further⟩ := second.version middle there
    exact ⟨later,last,ordered.trans further⟩

theorem Stays.next (first : Stays name s t) (second : Stays name t u) : Stays name s u :=
  ⟨first.grows.next second.grows,second.holds,second.version.trans first.version,second.rows.trans first.rows⟩

theorem Relied.rfl : Relied name s s := ⟨Grows.rfl,fun holds _ => ⟨Grows.rfl,holds,Eq.refl _,Eq.refl _⟩⟩

theorem Relied.next (first : Relied name s t) (second : Relied name t u) : Relied name s u := by
  refine ⟨first.grows.next second.grows,fun holds current => ?_⟩
  have middle := first.held holds fun lost => current (second.grows.overtaken name lost)
  exact middle.next (second.held middle.holds current)

theorem Accepted.later (accepted : Accepted source hash s) (grows : Grows s t) : Accepted source hash t := by
  obtain ⟨_,found,same⟩ := accepted
  obtain ⟨later,there,still⟩ := grows.receipts _ _ found
  exact ⟨later,there,still.trans same⟩

theorem Reached.later (reached : Reached source hash s) (grows : Grows s t) : Reached source hash t := by
  obtain ⟨_,found,ordered⟩ := reached
  obtain ⟨later,there,further⟩ := grows.version _ found
  exact ⟨later,there,ordered.trans (milliseconds_mono further)⟩

theorem Carried.later (carried : Carried source marker s) (grows : Grows s t) (rows : t.rows = s.rows) : Carried source marker t := by
  obtain ⟨own,last,key,written,stored,owned,wrote,same,order,projects,lastly,there⟩ := carried
  refine ⟨own,last,key,written,stored,owned.later grows,wrote.later grows,same,order,
    projectedRow_extended grows.records projects,projectedRow_extended grows.records lastly,?_⟩
  rw [rows]
  exact there

theorem Holds.same (holds : Holds name s) (same : t.globalLease = s.globalLease) : Holds name t := by
  obtain ⟨lease,found,mine⟩ := holds
  exact ⟨lease,same.trans found,mine⟩

theorem holder_unique (holds : Holds name s) (different : other ≠ name) : ¬Holds other s := by
  intro held
  obtain ⟨_,found,mine⟩ := holds
  obtain ⟨_,there,its⟩ := held
  cases found.symm.trans there
  cases mine.symm.trans its
  exact different rfl

theorem held_evicted (holds : Holds name s) (free : claimable s.globalLease s.clock) : name ∈ evicted s.globalLease s.clock := by
  obtain ⟨_,found,mine⟩ := holds
  unfold evicted
  rw [free,if_pos rfl,found]
  exact Option.mem_toList.mpr mine

theorem unheld (other : s.globalLease = some ⟨owner,expires,none⟩) : ¬Holds name s := by
  intro held
  obtain ⟨_,found,mine⟩ := held
  cases found.symm.trans other
  cases mine

theorem Grows.plain (records : t.records = s.records) (overtaken : ∀ other ∈ s.overtaken, other ∈ t.overtaken)
    (answers : ∀ answer ∈ s.answers, answer ∈ t.answers) (receipts : t.receipts = s.receipts) (version : t.version = s.version) : Grows s t := by
  refine ⟨?_,overtaken,answers,?_,?_⟩
  · rw [records]
    exact fun _ _ _ known => known
  · rw [receipts]
    exact fun _ receipt found => ⟨receipt,found,Eq.refl _⟩
  rw [version]
  exact fun marker found => ⟨marker,found,le_refl _⟩

theorem held_keeps (holds : Holds name s) (valid : Valid source t) (grows : Grows s t) (own : ∀ id receipt, t.receipts id = some receipt →
      (∃ old, s.receipts id = some old ∧ old.payloadHash = receipt.payloadHash) ∨ receipt.payloadHash = hash) : Keeps source name hash s t :=
  ⟨valid,fun _ different => ⟨grows,fun held => absurd held (holder_unique holds different)⟩,own⟩
end

section
variable {Hash : Type} {source : Source Hash} {hash : Hash} {s t : Store Hash}

def terms (source : Source Hash) (name : Nat) (hash : Hash) : Terms (Store Hash) (Option ProjectionResult) where
  inside s := Valid source s ∧ name ∉ s.overtaken
  rely := Relied name
  guarantee s t _ := Keeps source name hash s t
  post _ _ := True

theorem ended (result : Option ProjectionResult) : Obeys (terms source name hash) (.done result) s := trivial

theorem holding (holds : Holds name s)
    (after : ∀ t, Stays name s t → Valid source t → (Keeps source name hash t (effect t) ∧ Obeys (terms source name hash) (further t) (effect t)) ∧
        Obeys (terms source name hash) handler t) : Obeys (terms source name hash) (.call effect further handler) s := by
  intro t relied inside
  exact after t (relied.held holds inside.2) inside.1

theorem reading (holds : Holds name s) (after : ∀ t, Stays name s t → Valid source t →
      Obeys (terms source name hash) (further t) t ∧ Obeys (terms source name hash) handler t) : Obeys (terms source name hash) (.read handler further) s := by
  apply holding holds
  intro t stays valid
  have keeps : Keeps source name hash t t :=
    ⟨valid,fun _ _ => .rfl,fun id receipt found => .inl ⟨receipt,found,rfl⟩⟩
  exact ⟨⟨keeps,(after t stays valid).1⟩,(after t stays valid).2⟩

theorem settleReceipt_valid (status : ReceiptStatus) (valid : Valid source s) (accepted : Accepted source hash s)
    (reached : Reached source hash s) : Valid source (settleReceipt source hash status s) ∧ Grows s (settleReceipt source hash status s) := by
  obtain ⟨receipt,found,mine⟩ := accepted
  have own : (settleReceipt source hash status s).receipts (source.body hash).eventId = some ⟨receipt.payloadHash,status⟩ := by
    show update s.receipts _ (Option.map _ _) _ = _
    rw [update_self,found]
    rfl
  have other : ∀ id, id ≠ (source.body hash).eventId → (settleReceipt source hash status s).receipts id = s.receipts id :=
    fun id different => update_of_ne different ..
  have grows : Grows s (settleReceipt source hash status s) := by
    refine ⟨fun _ _ _ known => known,fun _ mem => mem,fun _ mem => mem,?_,fun marker known => ⟨marker,known,le_refl _⟩⟩
    intro id old known
    by_cases same : id = (source.body hash).eventId
    · subst same
      cases found.symm.trans known
      exact ⟨_,own,rfl⟩
    exact ⟨old,(other id same).trans known,rfl⟩
  refine ⟨⟨?_,?_,?_⟩,grows⟩
  · intro asked later known its settled
    by_cases same : (source.body asked).eventId = (source.body hash).eventId
    · rw [same,own] at known
      cases known
      have equal : asked = hash := its.symm.trans mine
      subst equal
      exact reached
    rw [other _ same] at known
    exact valid.settled asked later known its settled
  · intro asked result mem
    obtain ⟨known,past⟩ := valid.answered asked result mem
    exact ⟨known.later grows,past⟩
  intro marker known
  exact (valid.carried marker known).later grows rfl

theorem settleReceipt_own (id : Text) (receipt : Receipt Hash) (found : (settleReceipt source hash status s).receipts id = some receipt) :
    ∃ old, s.receipts id = some old ∧ old.payloadHash = receipt.payloadHash := by
  change update s.receipts (source.body hash).eventId _ id = _ at found
  by_cases same : id = (source.body hash).eventId
  · subst same
    rw [update_self] at found
    obtain ⟨old,known,equal⟩ := Option.map_eq_some_iff.mp found
    cases equal
    exact ⟨old,known,rfl⟩
  rw [update_of_ne same] at found
  exact ⟨receipt,found,rfl⟩

theorem acknowledge_obeys (answered : (hash,result) ∈ s.answers) : Obeys (terms source name hash) (acknowledge source hash result) s := by
  cases result with
  | applied =>
    intro t relied inside
    obtain ⟨accepted,reached⟩ := inside.1.answered hash .applied (relied.grows.answers _ answered)
    obtain ⟨valid,grows⟩ := settleReceipt_valid .completed inside.1 accepted reached
    refine ⟨⟨⟨valid,fun other _ => ⟨grows,fun held _ => ⟨grows,held,rfl,rfl⟩⟩,?_⟩,ended _⟩,ended _⟩
    intro id receipt found
    exact .inl (settleReceipt_own id receipt found)
  | duplicate | ignored => exact ended _

def Settled (source : Source Hash) (hash : Hash) (result : Option ProjectionResult) (s : Store Hash) : Prop :=
  result ≠ none → Accepted source hash s ∧ Reached source hash s

theorem Settled.later (settled : Settled source hash result s) (grows : Grows s t) :
    Settled source hash result t := fun some => ⟨(settled some).1.later grows,(settled some).2.later grows⟩

theorem releaseGlobalProjection_obeys (holds : Holds name s) (settled : Settled source hash result s) :
    Obeys (terms source name hash) (releaseGlobalProjection source hash result) s := by
  cases result with
  | none =>
    apply holding holds
    intro t stays valid
    refine ⟨⟨held_keeps stays.holds ⟨valid.settled,valid.answered,valid.carried⟩ ?_ ?_,ended _⟩,ended _⟩
    · exact .plain rfl (fun _ mem => mem) (fun _ mem => mem) rfl rfl
    exact fun id receipt found => .inl ⟨receipt,found,rfl⟩
  | some =>
    apply holding holds
    intro t stays valid
    obtain ⟨accepted,reached⟩ := settled.later stays.grows nofun
    refine ⟨⟨held_keeps stays.holds ⟨valid.settled,?_,valid.carried⟩ ?_ ?_,?_⟩,ended _⟩
    · intro asked given mem
      rcases mem_cons.mp mem with same | old
      · cases same
        exact ⟨accepted,reached⟩
      exact valid.answered asked given old
    · exact .plain rfl (fun _ mem => mem) (fun _ mem => mem_cons_of_mem _ mem) rfl rfl
    · exact fun id receipt found => .inl ⟨receipt,found,rfl⟩
    exact acknowledge_obeys (mem_cons_self ..)

theorem leases_kept (hash : Hash) (global entity : Option Lease) (valid : Valid source s) (holds : Holds name s)
    (still : Holds name { s with globalLease := global, entityLease := entity }) :
    Keeps source name hash s { s with globalLease := global, entityLease := entity } ∧
      Stays name s { s with globalLease := global, entityLease := entity } := by
  have grows : Grows s { s with globalLease := global, entityLease := entity } :=
    .plain rfl (fun _ mem => mem) (fun _ mem => mem) rfl rfl
  exact ⟨held_keeps holds ⟨valid.settled,valid.answered,valid.carried⟩ grows fun id receipt found => .inl ⟨receipt,found,rfl⟩, grows,still,rfl,rfl⟩

theorem releaseProjectionEntity_obeys (holds : Holds name s) (settled : Settled source hash result s) :
    Obeys (terms source name hash) (releaseProjectionEntity source hash result) s := by
  apply holding holds
  intro t stays valid
  obtain ⟨keeps,same⟩ := leases_kept hash t.globalLease (released t.entityLease (source.body hash).eventId) valid stays.holds stays.holds
  exact ⟨⟨keeps,releaseGlobalProjection_obeys same.holds ((settled.later stays.grows).later same.grows)⟩, releaseGlobalProjection_obeys stays.holds nofun⟩

theorem failing (holds : Holds name s) : Obeys (terms source name hash) (releaseProjectionEntity source hash none) s :=
  releaseProjectionEntity_obeys holds nofun

section
variable {further : Delivery Hash} (holds : Holds name s) (after : ∀ t, Stays name s t → Obeys (terms source name hash) further t)
include further holds after

theorem refreshGlobalProjection_obeys : Obeys (terms source name hash) (refreshGlobalProjection source hash further) s := by
  apply holding holds
  intro t stays valid
  obtain ⟨lease,found,mine⟩ := stays.holds
  have still : Holds name { t with globalLease := refreshed t.globalLease t.clock (source.body hash).eventId } := by
    refine ⟨_,congrArg (refreshed · t.clock (source.body hash).eventId) found,?_⟩
    dsimp only
    split
    · exact mine
    exact mine
  obtain ⟨keeps,same⟩ := leases_kept hash _ t.entityLease valid stays.holds still
  refine ⟨⟨keeps,?_⟩,failing stays.holds⟩
  split
  · exact after _ (stays.next same)
  exact failing same.holds

theorem refreshProjectionEntityLease_obeys : Obeys (terms source name hash) (refreshProjectionEntityLease source hash further) s := by
  apply refreshGlobalProjection_obeys holds
  intro u passed
  apply holding passed.holds
  intro t stays valid
  obtain ⟨keeps,same⟩ := leases_kept hash t.globalLease (refreshed t.entityLease t.clock (source.body hash).eventId) valid stays.holds stays.holds
  refine ⟨⟨keeps,?_⟩,failing stays.holds⟩
  split
  · exact after _ ((passed.next stays).next same)
  exact failing same.holds
end

structure Ready (source : Source Hash) (name : Nat) (hash : Hash) (s : Store Hash) : Prop where
  holds : Holds name s
  accepted : Accepted source hash s
  newer : ∀ marker, s.version = some marker →
    milliseconds marker.sourceUpdatedAt < milliseconds (source.body hash).sourceUpdatedAt

theorem Ready.later (ready : Ready source name hash s) (stays : Stays name s t) : Ready source name hash t := by
  refine ⟨stays.holds,ready.accepted.later stays.grows,?_⟩
  rw [stays.version]
  exact ready.newer

theorem versioned_valid (valid : Valid source s) (ready : Ready source name hash s)
    (projects : projectedRow source.entity (source.body hash) s.records = .ok written) (stored : s.rows written.1 = some written.2) :
    Valid source { s with version := some ⟨(source.body hash).sourceUpdatedAt,(source.body hash).eventId⟩ } ∧
      Grows s { s with version := some ⟨(source.body hash).sourceUpdatedAt,(source.body hash).eventId⟩ } := by
  have past : ∀ asked, Reached source asked s →
      Reached source asked { s with version := some ⟨(source.body hash).sourceUpdatedAt,(source.body hash).eventId⟩ } := by
    intro _ reached
    obtain ⟨marker,found,ordered⟩ := reached
    exact ⟨_,rfl,ordered.trans (le_of_lt (ready.newer marker found))⟩
  refine ⟨⟨?_,?_,?_⟩,?_⟩
  · exact fun asked receipt found its settled => past asked (valid.settled asked receipt found its settled)
  · exact fun asked result mem => ⟨(valid.answered asked result mem).1,past asked (valid.answered asked result mem).2⟩
  · intro _ found
    cases found
    exact ⟨hash,hash,written.1,written.2,written.2,ready.accepted,ready.accepted,rfl,.inl rfl,projects,projects,stored⟩
  refine ⟨fun _ _ _ known => known,fun _ mem => mem,fun _ mem => mem,fun _ receipt found => ⟨receipt,found,rfl⟩,?_⟩
  exact fun marker found => ⟨_,rfl,later_of_milliseconds (ready.newer marker found)⟩

theorem writeVersion_obeys (ready : Ready source name hash s)
    (projects : projectedRow source.entity (source.body hash) s.records = .ok written) (stored : s.rows written.1 = some written.2) :
    Obeys (terms source name hash) (writeVersion source hash) s := by
  apply holding ready.holds
  intro t stays valid
  have later := ready.later stays
  rw [←stays.rows] at stored
  obtain ⟨sound,grows⟩ := versioned_valid valid later (projectedRow_extended stays.grows.records projects) stored
  refine ⟨⟨held_keeps later.holds sound grows fun id receipt found => .inl ⟨receipt,found,rfl⟩,?_⟩,failing later.holds⟩
  refine releaseProjectionEntity_obeys (later.holds.same rfl) fun _ => ?_
  exact ⟨later.accepted.later grows,_,rfl,le_refl _⟩

section
variable {further : Delivery Hash} (holds : Holds name s) (after : ∀ t, Stays name s t → Obeys (terms source name hash) further t)
include further holds after

theorem reconcile_obeys (batches : Nat) : Obeys (terms source name hash) (reconcilePortalProjectionAccess source hash further batches) s := by
  induction batches generalizing s with
  | zero => exact after s ⟨.rfl,holds,rfl,rfl⟩
  | succ _ ih =>
    apply refreshGlobalProjection_obeys holds
    intro u passed
    apply reading passed.holds
    intro t stays _
    refine ⟨ih stays.holds ?_,failing stays.holds⟩
    exact fun v further => after v ((passed.next stays).next further)

theorem applyPortalProjection_obeys : Obeys (terms source name hash) (applyPortalProjection source name hash further) s := by
  have reconciled : Obeys (terms source name hash)
      (.read (releaseProjectionEntity source hash none) fun _ => .read (releaseProjectionEntity source hash none) fun _ =>
        reconcilePortalProjectionAccess source hash further (source.chunks name)) s := by
    apply reading holds
    intro t stays valid
    refine ⟨?_,failing stays.holds⟩
    apply reading stays.holds
    intro u again _
    refine ⟨reconcile_obeys again.holds ?_ _,failing again.holds⟩
    exact fun v further => after v ((stays.next again).next further)
  have skipped : Obeys (terms source name hash) further s := after s ⟨.rfl,holds,rfl,rfl⟩
  unfold applyPortalProjection
  split
  · exact reconciled
  · exact reconciled
  exact skipped
end

theorem written_valid (valid : Valid source s) (ready : Ready source name hash s)
    (projects : projectedRow source.entity (source.body hash) s.records = .ok written) :
    Valid source { s with rows := update s.rows written.1 (some written.2) } := by
  refine ⟨valid.settled,valid.answered,?_⟩
  intro marker found
  obtain ⟨own,last,key,mine,stored,owned,wrote,same,order,its,lastly,there⟩ := valid.carried marker found
  by_cases equal : key = written.1
  · subst equal
    refine ⟨own,hash,written.1,mine,written.2,owned,ready.accepted,same,.inr ?_,its,projects,update_self ..⟩
    have newer := ready.newer marker found
    rw [same] at newer
    exact newer
  refine ⟨own,last,key,mine,stored,owned,wrote,same,order,its,lastly,?_⟩
  exact (update_of_ne equal ..).trans there

theorem writeRow_obeys (ready : Ready source name hash s) (projects : projectedRow source.entity (source.body hash) s.records = .ok written) :
    Obeys (terms source name hash) (writeRow source name hash written) s := by
  apply refreshProjectionEntityLease_obeys ready.holds
  intro u passed
  apply holding passed.holds
  intro t stays valid
  have still := (ready.later passed).later stays
  have known := projectedRow_extended (passed.next stays).grows.records projects
  have grows : Grows t { t with rows := update t.rows written.1 (some written.2) } :=
    .plain rfl (fun _ mem => mem) (fun _ mem => mem) rfl rfl
  refine ⟨⟨held_keeps still.holds (written_valid valid still known) grows fun id receipt found => .inl ⟨receipt,found,rfl⟩,?_⟩,failing still.holds⟩
  have changed : Ready source name hash { t with rows := update t.rows written.1 (some written.2) } :=
    ⟨still.holds,still.accepted,still.newer⟩
  apply refreshProjectionEntityLease_obeys changed.holds
  intro _ one
  apply applyPortalProjection_obeys one.holds
  intro _ two
  apply refreshProjectionEntityLease_obeys two.holds
  intro _ three
  have all := (one.next two).next three
  apply writeVersion_obeys (changed.later all) (projectedRow_extended all.grows.records known)
  rw [all.rows]
  exact update_self ..

theorem reserved_extended (requested : List (RecordKind × Text)) (records : SourceMap) : Extended records (reserved source name requested records) := by
  intro _ _ _ found
  unfold reserved
  rw [found]

theorem projectEntity_obeys (ready : Ready source name hash s) : Obeys (terms source name hash) (projectEntity source name hash) s := by
  unfold projectEntity
  split
  · exact failing ready.holds
  rename_i requested references
  apply reading ready.holds
  intro u passed _
  refine ⟨?_,failing passed.holds⟩
  apply holding passed.holds
  intro t stays valid
  have still := (ready.later passed).later stays
  have grows : Grows t { t with records := reserved source name requested t.records } :=
    ⟨reserved_extended requested t.records,fun _ mem => mem,fun _ mem => mem,
      fun _ receipt found => ⟨receipt,found,rfl⟩,fun marker found => ⟨marker,found,le_refl _⟩⟩
  have sound : Valid source { t with records := reserved source name requested t.records } :=
    ⟨valid.settled,valid.answered,fun marker found => (valid.carried marker found).later grows rfl⟩
  refine ⟨⟨held_keeps still.holds sound grows fun id receipt found => .inl ⟨receipt,found,rfl⟩,?_⟩,failing still.holds⟩
  split
  · exact failing still.holds
  rename_i written projects
  exact writeRow_obeys ⟨still.holds,still.accepted,still.newer⟩ projects

theorem ignoreEvent_obeys (holds : Holds name s) (accepted : Accepted source hash s) (reached : Reached source hash s) :
    Obeys (terms source name hash) (ignoreEvent source hash) s := by
  apply holding holds
  intro t stays valid
  obtain ⟨sound,grows⟩ := settleReceipt_valid .ignored valid (accepted.later stays.grows) (reached.later stays.grows)
  refine ⟨⟨held_keeps stays.holds sound grows fun id receipt found => .inl (settleReceipt_own id receipt found),?_⟩, failing stays.holds⟩
  refine releaseProjectionEntity_obeys (stays.holds.same rfl) fun _ => ?_
  exact ⟨(accepted.later stays.grows).later grows,(reached.later stays.grows).later grows⟩

section
variable {receipt : Option (Receipt Hash)} (holds : Holds name s) (accepted : Accepted source hash s)
include receipt holds accepted

theorem compareVersion_obeys : Obeys (terms source name hash) (compareVersion source name hash receipt) s := by
  apply reading holds
  intro t stays valid
  refine ⟨?_,failing stays.holds⟩
  have there := accepted.later stays.grows
  by_cases old : outdated (source.body hash) t.version
  · rw [if_pos old]
    obtain ⟨marker,found,ordered⟩ := (Option.any_eq_true ..).mp old
    have reached : Reached source hash t := ⟨marker,found,of_decide_eq_true ordered⟩
    split
    · exact releaseProjectionEntity_obeys stays.holds fun _ => ⟨there,reached⟩
    exact ignoreEvent_obeys stays.holds there reached
  rw [if_neg old]
  apply projectEntity_obeys
  refine ⟨stays.holds,there,fun marker found => ?_⟩
  by_contra ordered
  apply old
  rw [found]
  exact decide_eq_true (not_lt.mp ordered)

theorem claimProjectionEntity_obeys : Obeys (terms source name hash) (claimProjectionEntity source name hash receipt) s := by
  apply holding holds
  intro t stays valid
  obtain ⟨keeps,same⟩ := leases_kept hash t.globalLease (claimed t.entityLease t.clock (source.body hash).eventId (some name)) valid stays.holds stays.holds
  refine ⟨⟨keeps,?_⟩,releaseGlobalProjection_obeys stays.holds nofun⟩
  split
  · exact compareVersion_obeys same.holds ((accepted.later stays.grows).later same.grows)
  exact releaseGlobalProjection_obeys same.holds nofun
end

theorem insertReceipt_obeys (holds : Holds name s) : Obeys (terms source name hash) (insertReceipt source name hash) s := by
  apply holding holds
  intro t stays valid
  refine ⟨?_,releaseGlobalProjection_obeys stays.holds nofun⟩
  cases there : t.receipts (source.body hash).eventId with
  | some receipt =>
    have unchanged : insertedReceipt source hash t = t := by
      show { t with receipts := if (t.receipts (source.body hash).eventId).isSome then _ else _ } = t
      rw [there]
      rfl
    rw [unchanged]
    exact ⟨held_keeps stays.holds valid .rfl fun id receipt found => .inl ⟨receipt,found,rfl⟩, releaseGlobalProjection_obeys stays.holds nofun⟩
  | none =>
    have inserted : (insertedReceipt source hash t).receipts = update t.receipts (source.body hash).eventId (some ⟨hash,.pending⟩) := by
      show (if (t.receipts (source.body hash).eventId).isSome then _ else _) = _
      rw [there]
      rfl
    have own : (insertedReceipt source hash t).receipts (source.body hash).eventId = some ⟨hash,.pending⟩ := by
      rw [inserted]
      exact update_self ..
    have other : ∀ id, id ≠ (source.body hash).eventId → (insertedReceipt source hash t).receipts id = t.receipts id := by
      intro _ different
      rw [inserted]
      exact update_of_ne different ..
    have grows : Grows t (insertedReceipt source hash t) := by
      refine ⟨fun _ _ _ known => known,fun _ mem => mem,fun _ mem => mem,?_,fun marker known => ⟨marker,known,le_refl _⟩⟩
      intro id receipt found
      have different : id ≠ (source.body hash).eventId := by
        intro same
        rw [same,there] at found
        cases found
      exact ⟨receipt,(other id different).trans found,rfl⟩
    have sound : Valid source (insertedReceipt source hash t) := by
      refine ⟨?_,?_,fun marker found => (valid.carried marker found).later grows rfl⟩
      · intro asked receipt found its settled
        by_cases same : (source.body asked).eventId = (source.body hash).eventId
        · rw [same,own] at found
          cases found
          exact absurd rfl settled
        rw [other _ same] at found
        exact (valid.settled asked receipt found its settled).later grows
      intro asked result mem
      exact ⟨(valid.answered asked result mem).1.later grows,(valid.answered asked result mem).2.later grows⟩
    refine ⟨held_keeps stays.holds sound grows ?_,claimProjectionEntity_obeys stays.holds ⟨_,own,rfl⟩⟩
    intro id receipt found
    by_cases same : id = (source.body hash).eventId
    · rw [same,own] at found
      cases found
      exact .inr rfl
    rw [other id same] at found
    exact .inl ⟨receipt,found,rfl⟩

variable [DecidableEq Hash]

theorem locked_obeys (holds : Holds name s) : Obeys (terms source name hash) (applyProjectionEventLocked source name hash) s := by
  apply reading holds
  intro t stays valid
  refine ⟨?_,releaseGlobalProjection_obeys stays.holds nofun⟩
  cases there : t.receipts (source.body hash).eventId with
  | none => exact insertReceipt_obeys stays.holds
  | some receipt =>
    dsimp only
    by_cases mine : receipt.payloadHash = hash
    · rw [if_neg (not_not.mpr mine)]
      have accepted : Accepted source hash t := ⟨receipt,there,mine⟩
      split
      · rename_i settled
        apply releaseGlobalProjection_obeys stays.holds
        refine fun _ => ⟨accepted,valid.settled hash receipt there mine ?_⟩
        rcases settled with completed | ignored
        · rw [completed]
          nofun
        rw [ignored]
        nofun
      exact claimProjectionEntity_obeys stays.holds accepted
    rw [if_pos mine]
    exact releaseGlobalProjection_obeys stays.holds nofun

theorem code_obeys : Obeys (terms source name hash) (applyProjectionEventForSource source name hash) s := by
  intro t relied inside
  have valid := inside.1
  have grows : Grows t { t with
      globalLease := claimed t.globalLease t.clock (source.body hash).eventId (some name)
      overtaken := evicted t.globalLease t.clock++t.overtaken } :=
    .plain rfl (fun _ mem => mem_append_right _ mem) (fun _ mem => mem) rfl rfl
  refine ⟨⟨⟨⟨valid.settled,valid.answered,valid.carried⟩,?_,fun id receipt found => .inl ⟨receipt,found,rfl⟩⟩,?_⟩,ended _⟩
  · intro _ _
    refine ⟨grows,fun held current => ?_⟩
    obtain ⟨lease,found,its⟩ := held
    cases free : claimable t.globalLease t.clock with
    | true =>
      -- The holder before has just been overtaken.
      refine absurd (mem_append_left _ ?_) current
      unfold evicted
      rw [free,if_pos rfl,found]
      exact List.mem_of_mem_head? (congrArg (fun holder => holder.toList.head?) its)
    | false =>
      refine ⟨grows,⟨lease,?_,its⟩,rfl,rfl⟩
      show claimed t.globalLease t.clock _ _ = some lease
      unfold claimed
      rw [free]
      exact found
  dsimp only
  split
  · rename_i free
    apply locked_obeys
    refine ⟨_,if_pos free,rfl⟩
  exact ended _
end

section
variable {Hash : Type} [DecidableEq Hash] {source : Source Hash}

abbrev Deliveries (Hash : Type) := System (Store Hash) Nat Hash (Option ProjectionResult)
abbrev Taken (Hash : Type) := Transition (Deliveries Hash) (Event Nat Hash)

omit [DecidableEq Hash] in
theorem elsewhere_relied (moved : Elsewhere s t) (valid : Valid source s) : Valid source t ∧ ∀ name, Relied name s t := by
  have mem : ∀ other ∈ s.overtaken, other ∈ s.overtaken := fun _ mem => mem
  have answer : ∀ given ∈ s.answers, given ∈ s.answers := fun _ mem => mem
  cases moved with
  | @tick clock later =>
    have grows : Grows s { s with clock := clock } := .plain rfl mem answer rfl rfl
    exact ⟨⟨valid.settled,valid.answered,valid.carried⟩,fun _ => ⟨grows,fun held _ => ⟨grows,held.same rfl,rfl,rfl⟩⟩⟩
  | claim free =>
    refine ⟨⟨valid.settled,valid.answered,valid.carried⟩,fun name => ⟨?_,fun held current => ?_⟩⟩
    · exact .plain rfl (fun _ known => mem_append_right _ known) answer rfl rfl
    exact absurd (mem_append_left _ (held_evicted held free)) current
  | refresh other | release other =>
    refine ⟨⟨valid.settled,valid.answered,valid.carried⟩,fun name => ⟨?_,fun held _ => absurd held (unheld other)⟩⟩
    exact .plain rfl mem answer rfl rfl
  | @reserve records kept =>
    have grows : Grows s { s with records := records } :=
      ⟨kept,mem,answer,fun _ receipt found => ⟨receipt,found,rfl⟩,fun marker found => ⟨marker,found,le_refl _⟩⟩
    exact ⟨⟨valid.settled,valid.answered,fun marker found => (valid.carried marker found).later grows rfl⟩,
      fun _ => ⟨grows,fun held _ => ⟨grows,held.same rfl,rfl,rfl⟩⟩⟩

omit [DecidableEq Hash] in
theorem elsewhere_receipts (moved : Elsewhere s t) : t.receipts = s.receipts := by
  cases moved with
  | _ => rfl

theorem discipline (source : Source Hash) : Discipline (setting source) (Valid source) (terms source) where
  same _ _ _ := .rfl
  trans _ _ _ _ _ first second := first.next second
  stable _ _ _ _ _ _ _ := trivial
  inside _ _ _ valid may := ⟨valid,may⟩
  entered _ _ _ _ _ := code_obeys
  outside _ _ valid moved := ⟨(elsewhere_relied moved valid).1,fun name _ => (elsewhere_relied moved valid).2 name⟩
  kept _ _ _ _ _ _ _ keeps := ⟨keeps.valid,fun other different _ => keeps.others other different⟩

omit [DecidableEq Hash] in
theorem initial_valid (clock : Nat) (records : SourceMap) : Valid source (Store.initial clock records) := by
  refine ⟨?_,?_,?_⟩
  · intro _ _ found
    cases found
  · intro _ _ mem
    cases mem
  intro _ found
  cases found

def Requested (final : Deliveries Hash) (hash : Hash) : Prop := ∃ name program, final.programs name = some (hash,program)
def Answered (final : Deliveries Hash) (hash : Hash) : Prop := ∃ result, (hash,result) ∈ final.store.answers

def Newest (source : Source Hash) (final : Deliveries Hash) (newest : Hash) : Prop :=
  Requested final newest ∧ ∀ other, Requested final other → other ≠ newest →
    (source.body other).sourceUpdatedAt < (source.body newest).sourceUpdatedAt

structure Converges (source : Source Hash) (history : List (Taken Hash)) (final : Deliveries Hash) : Prop where
  marker : ∀ taken ∈ history, ∀ marker, taken.before.store.version = some marker →
    ∃ later, taken.after.store.version = some later ∧ marker.sourceUpdatedAt ≤ later.sourceUpdatedAt
  payload : ∀ taken ∈ history, ∀ id receipt, taken.before.store.receipts id = some receipt →
    ∃ later, taken.after.store.receipts id = some later ∧ later.payloadHash = receipt.payloadHash
  accepted : ∀ hash, Answered final hash → ∃ receipt, final.store.receipts (source.body hash).eventId = some receipt ∧
    receipt.payloadHash = hash
  projected : ∀ newest, Newest source final newest → (∀ hash, Requested final hash → Answered final hash) →
    ∃ key row, projectedRow source.entity (source.body newest) final.store.records = .ok (key,row) ∧
      final.store.rows key = some row

structure Kept (source : Source Hash) (history : List (Taken Hash)) (final : Deliveries Hash) : Prop where
  orderly : Orderly (Valid source) (terms source) final
  grown : ∀ taken ∈ history, Grows taken.before.store taken.after.store
  requested : ∀ id receipt, final.store.receipts id = some receipt → Requested final receipt.payloadHash

section
variable {before after : Deliveries Hash} {event : Event Nat Hash}
include before after event

theorem step_grows (orderly : Orderly (Valid source) (terms source) before)
    (taken : Step (setting source) before event after) : Grows before.store after.store := by
  rcases (discipline source).effect orderly taken with same | ⟨-,moved⟩ | ⟨name,hash,program,-,-,-,keeps⟩
  · rw [same]
    exact .rfl
  · exact ((elsewhere_relied moved orderly.valid).2 0).grows
  exact (keeps.others (name+1) (Nat.succ_ne_self name)).grows

theorem Requested.stands {hash : Hash} (requested : Requested before hash) (taken : Step (setting source) before event after) : Requested after hash := by
  obtain ⟨name,_,found⟩ := requested
  obtain ⟨further,there⟩ := taken.stands found
  exact ⟨name,further,there⟩

theorem step_requested (orderly : Orderly (Valid source) (terms source) before)
    (requested : ∀ id receipt, before.store.receipts id = some receipt → Requested before receipt.payloadHash)
    (taken : Step (setting source) before event after) : ∀ id receipt, after.store.receipts id = some receipt → Requested after receipt.payloadHash := by
  intro id receipt found
  rcases (discipline source).effect orderly taken with same | ⟨-,moved⟩ | ⟨name,hash,program,-,there,-,keeps⟩
  · rw [same] at found
    exact (requested id receipt found).stands taken
  · rw [elsewhere_receipts moved] at found
    exact (requested id receipt found).stands taken
  rcases keeps.own id receipt found with ⟨old,known,same⟩ | own
  · rw [←same]
    exact (requested id old known).stands taken
  rw [own]
  exact ⟨name,program,there⟩
end

theorem history_kept (path : Runs (Recorded (Step (setting source))) (System.initial (Store.initial clock records)) history final) :
    Kept source history final := by
  refine path.preserves_history (Kept source) ?_ ?_
  · intro _ _ _ _ kept step
    obtain ⟨rfl,rfl,moved⟩ := step
    refine ⟨(discipline source).step kept.orderly moved,?_,step_requested kept.orderly kept.requested moved⟩
    intro other mem
    rcases mem_snoc.mp mem with old | rfl
    · exact kept.grown other old
    exact step_grows kept.orderly moved
  refine ⟨.started _ (initial_valid clock records),?_,?_⟩
  · intro _ mem
    cases mem
  · intro _ _ found
    cases found
end

-- No other delivered event has its source_updated_at in the newest one's millisecond.
theorem projection_converges {Hash : Type} [DecidableEq Hash] (source : Source Hash) (clock : Nat) (records : SourceMap)
    (history : List (Taken Hash)) (final : Deliveries Hash)
    (path : Runs (Recorded (Step (setting source))) (System.initial (Store.initial clock records)) history final)
    (apart : ∀ newest, Newest source final newest → ∀ other, Requested final other → other ≠ newest →
      milliseconds (source.body other).sourceUpdatedAt ≠ milliseconds (source.body newest).sourceUpdatedAt) : Converges source history final := by
  have kept := history_kept path
  have valid := kept.orderly.valid
  refine ⟨fun taken member => (kept.grown taken member).version,fun taken member => (kept.grown taken member).receipts,?_,?_⟩
  · intro hash answered
    obtain ⟨result,member⟩ := answered
    exact (valid.answered hash result member).1
  intro newest first all
  have greatest : ∀ hash, Accepted source hash final.store → milliseconds (source.body newest).sourceUpdatedAt ≤
      milliseconds (source.body hash).sourceUpdatedAt → hash = newest := by
    intro hash accepted ordered
    obtain ⟨_,found,same⟩ := accepted
    have requested := kept.requested _ _ found
    rw [same] at requested
    by_contra different
    have older := milliseconds_mono (le_of_lt (first.2 hash requested different))
    exact apart newest first hash requested different (le_antisymm older ordered)
  obtain ⟨result,member⟩ := all newest first.1
  obtain ⟨marker,found,reached⟩ := (valid.answered newest result member).2
  obtain ⟨own,last,key,_,stored,owned,wrote,same,order,-,projects,there⟩ := valid.carried marker found
  rw [same] at reached
  have marks : own = newest := greatest own owned reached
  have carries : last = newest := by
    rcases order with equal | later
    · exact equal.trans marks
    exact greatest last wrote (reached.trans (le_of_lt later))
  rw [carries] at projects
  exact ⟨key,stored,projects,there⟩

-- Two revisions of one business unit, each delivered once and in order; the second is ignored 800 microseconds
-- after the first.

def revision (later : ℚ) : Bool → ProjectionEvent
  | false => ⟨['a'],.upsert,1001/10000,[("name",.text ['o','l','d'])]⟩
  | true => ⟨['b'],.revoke,later,[("name",.text ['n','e','w'])]⟩

def unit (later : ℚ) : Source Bool := ⟨⟨.businessUnit,['7']⟩,true,revision later,fun _ _ id => id,fun _ => 0⟩

def delivered (calls : Nat) : List (Event Nat Bool) :=
  .start 0 false :: replicate 18 (.call 0)++.start 1 true :: replicate calls (.call 1)

def idle : Deliveries Bool := System.initial (.initial 0 fun _ _ => none)
def outcome (later : ℚ) (calls : Nat) : Deliveries Bool := (delivered calls).foldl (System.play (setting (unit later)) id) idle

instance (later : ℚ) (name : Nat) (hash : Bool) (s : Store Bool) : Decidable ((setting (unit later)).enter name hash s) :=
  .isTrue trivial

instance (later : ℚ) (name : Nat) (hash : Bool) (s : Store Bool) : Decidable ((setting (unit later)).may name hash s) :=
  inferInstanceAs (Decidable (name ∉ s.overtaken))

theorem delivered_path (later : ℚ) (calls : Nat) (replays : idle.replays (setting (unit later)) (delivered calls)) :
    Runs (Recorded (Step (setting (unit later)))) idle
      (trace (System.play (setting (unit later)) id) idle (delivered calls)) (outcome later calls) := System.replayed replays

theorem requested_of_programs (final : Deliveries Bool) (first : (final.programs 0).map Prod.fst = some false)
    (second : (final.programs 1).map Prod.fst = some true) (hash : Bool) : Requested final hash := by
  cases hash with
  | false =>
    obtain ⟨entry,found,same⟩ := Option.map_eq_some_iff.mp first
    exact ⟨0,entry.2,by rw [←same,found]⟩
  | true =>
    obtain ⟨entry,found,same⟩ := Option.map_eq_some_iff.mp second
    exact ⟨1,entry.2,by rw [←same,found]⟩

theorem newest_ignored : ¬∀ history final,
    Runs (Recorded (Step (setting (unit (1009/10000))))) (System.initial (Store.initial 0 fun _ _ => none)) history final →
      Converges (unit (1009/10000)) history final := by
  intro converges
  have sound := converges _ _ (delivered_path (1009/10000) 8 (by decide +kernel))
  have requested := requested_of_programs (outcome (1009/10000) 8) (by decide +kernel) (by decide +kernel)
  have newest : Newest (unit (1009/10000)) (outcome (1009/10000) 8) true := by
    refine ⟨requested true,fun other _ different => ?_⟩
    cases other with
    | false => decide +kernel
    | true => exact absurd rfl different
  have answers : (outcome (1009/10000) 8).store.answers = [(true,.ignored),(false,.applied)] := by decide +kernel
  have rows : ((outcome (1009/10000) 8).store.rows (.id .businessUnit ['7'])).map Row.active = some true := by decide +kernel
  have projects : (projectedRow (unit (1009/10000)).entity ((unit (1009/10000)).body true)
      (outcome (1009/10000) 8).store.records).toOption.map (fun written => (written.1,written.2.active)) =
        some (.id .businessUnit ['7'],false) := by decide +kernel
  obtain ⟨_,_,projected,there⟩ := sound.projected true newest fun hash _ => by
    unfold Answered
    rw [answers]
    cases hash with
    | false => exact ⟨.applied,mem_cons_of_mem _ (mem_cons_self ..)⟩
    | true => exact ⟨.ignored,mem_cons_self ..⟩
  rw [projected] at projects
  obtain ⟨same,inactive⟩ := Prod.mk.inj (Option.some.inj projects)
  rw [←same,there] at rows
  exact absurd (inactive.symm.trans (Option.some.inj rows)) (by decide)

theorem projection_converges_example :
    Converges (unit (102/1000)) (trace (System.play (setting (unit (102/1000))) id) idle (delivered 18)) (outcome (102/1000) 18) ∧
      ((outcome (102/1000) 18).store.rows (.id .businessUnit ['7'])).map Row.active = some false := by
  refine ⟨projection_converges (unit (102/1000)) 0 (fun _ _ => none) _ _ (delivered_path (102/1000) 18 (by decide +kernel)) ?_, by decide +kernel⟩
  intro newest _ other _ different
  cases newest with
  | false =>
    cases other with
    | false => exact absurd rfl different
    | true => decide +kernel
  | true =>
    cases other with
    | false => decide +kernel
    | true => exact absurd rfl different

end LedgeTopOps.EventProjection

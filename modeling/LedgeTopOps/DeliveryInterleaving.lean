import LedgeTopOps.DeliveryStaging

namespace LedgeTopOps.DeliveryChanges
open List StepRuns AtomicPrograms SqlBatches ClosedCodec WorkspacePublication Bool
open Function (update_of_ne update_self)

inductive Request where
  | stage (target : Target) (input : StageInput)
  | record (key : Text) (present : Bool) (objectVersion : Option Text) (eventAt : Option Nat)

def code (name : Nat) : Request → Program Store StageResult
  | .stage target input => stageAuthenticatedDeliveryChangeForTarget name target input
  | .record key present objectVersion eventAt => recordAuthenticatedDeliveryObjectChange name key present objectVersion eventAt

def Request.receipt : Request → Option Receipt
  | .stage _ input => (durableReceiptOrdering input).join
  | .record .. => none

def Request.event : Request → Option (Nat × Accepted)
  | .stage _ input => (durableReceiptOrdering input).join.map fun receipt =>
    (receipt.acceptedSequence,⟨input.key,input.present,cleanVersion input.objectVersion,receipt.providerObjectVersion⟩)
  | .record .. => none

def Distinct (accepted : Nat → Accepted) (request : Request) : Prop :=
  ∀ sequence event, request.event = some (sequence,event) → accepted sequence = event

-- Every other writer of these tables: a batch is sealed or its mail dealt with, a policy gets a later version,
-- grants, bindings and workspaces change in any way.
structure Outside (before after : Store) : Prop where
  ledger : after.ledger = before.ledger
  batches : Forall₂ Reshaped before.batches after.batches
  policyVersion : before.policyVersion ≤ after.policyVersion

def untold (policyVersion : Int) (authority : Target → Bool → Nat → Text → Bool) (selected : Text → Bool → Nat → Option Target) :
    Store := ⟨fun _ => none,[],[],policyVersion,authority,selected⟩

def setting (accepted : Nat → Accepted) : Setting Store Nat Request StageResult where
  code := code
  enter _ request _ := Distinct accepted request
  may _ _ _ := True
  outside := Outside

def Lasting (before after : Store) : Prop :=
  ∀ old ∈ before.batches, ∃ new ∈ after.batches, new.id = old.id ∧ new.policyVersion = old.policyVersion

theorem Lasting.rfl : Lasting s s := fun old mem => ⟨old,mem,Eq.refl _,Eq.refl _⟩

theorem Lasting.next (first : Lasting s t) (second : Lasting t u) : Lasting s u := by
  intro old mem
  obtain ⟨middle,there,sameId,sameVersion⟩ := first old mem
  obtain ⟨last,present,id,version⟩ := second middle there
  exact ⟨last,present,id.trans sameId,version.trans sameVersion⟩

theorem lasting_reshaped (pairs : Forall₂ Reshaped s.batches t.batches) : Lasting s t := by
  intro _ mem
  obtain ⟨new,there,reshaped⟩ := forall₂_left pairs mem
  exact ⟨new,there,reshaped.id,reshaped.policyVersion⟩

structure Keeps (accepted : Nat → Accepted) (receipt : Option Receipt) (before after : Store)
    (next : Program Store StageResult) : Prop where
  sound : Sound accepted after
  lasting : Lasting before after
  effects : Effects receipt before after
  idle : next = .done .staged ∨ Forall₂ Reshaped before.batches after.batches

def terms (accepted : Nat → Accepted) (_ : Nat) (request : Request) : Terms Store StageResult where
  inside := Sound accepted
  rely := Lasting
  guarantee before after next := Keeps accepted request.receipt before after next
  post _ _ := True

section
variable {name : Nat} {request : Request} {s t : Store}
  {next : Program Store StageResult}

theorem Passes.keeps (passes : Passes s t) (sound : Sound accepted s) : Keeps accepted receipt s t next :=
  ⟨passes.sound sound,lasting_reshaped passes.batches,.reshaped passes.ledger passes.batches,.inr passes.batches⟩

theorem reading (after : ∀ t, Lasting s t → Sound accepted t → Obeys (terms accepted name request) (further t) t) :
    Obeys (terms accepted name request) (.read (.done .threw) further) s :=
  obeys_read (fun _ sound => Passes.rfl.keeps sound) fun t relied sound => ⟨after t relied sound,trivial⟩

theorem put_keeps (lasting : Lasting s middle)
    (grown : ∀ old ∈ s.batches, old ∈ middle.batches) (ledger : middle.ledger = s.ledger) (sound : Sound accepted middle)
    (told : Told accepted change) (writable : Writable change batchId middle) (passes : Passes (put change batchId token baseline middle) t) :
    Keeps accepted change.receipt s t (.done .staged) := by
  have effects : Effects change.receipt middle (put change batchId token baseline middle) := put_effects sound told writable
  have further : Effects change.receipt (put change batchId token baseline middle) t := .reshaped passes.ledger passes.batches
  have kept : Lasting middle (put change batchId token baseline middle) := by
    intro old mem
    refine ⟨_,mem_map_of_mem mem,?_⟩
    split
    · exact ⟨rfl,rfl⟩
    exact ⟨rfl,rfl⟩
  refine ⟨passes.sound (put_sound sound told writable),(lasting.next kept).next (lasting_reshaped passes.batches),?_,.inl rfl⟩
  refine ⟨?_,?_,?_⟩
  · intro object row sequence stored held
    rw [passes.ledger]
    rw [←ledger] at stored
    exact effects.advances object row sequence stored held
  · intro object row sequence stored held
    rw [passes.ledger] at stored
    rw [←ledger]
    exact effects.own object row sequence stored held
  intro old mem closed
  obtain ⟨new,there,sameId,still,same⟩ := effects.closed old (grown old mem) closed
  obtain ⟨last,present,id,ends,items⟩ := further.closed new there still
  exact ⟨last,present,id.trans sameId,ends,items.trans same⟩

theorem settleRow_cases (change : Change) (s : Store) : (settleRow change s).ledger = s.ledger ∨ ∃ row, s.ledger change.key = some row ∧ settles change row ∧
      (settleRow change s).ledger = Function.update s.ledger change.key (some (settled change row)) := by
  have other : ∀ object, object ≠ change.key → (settleRow change s).ledger object = s.ledger object := by
    intro _ different
    exact if_neg different
  have own : (settleRow change s).ledger change.key = (s.ledger change.key).map fun row => if settles change row then settled change row else row := if_pos rfl
  cases stored : s.ledger change.key with
  | none =>
    left
    funext object
    by_cases same : object = change.key
    · rw [same,own,stored]
      rfl
    exact other object same
  | some row =>
    cases advances : settles change row with
    | false =>
      left
      funext object
      by_cases same : object = change.key
      · rw [same,own,stored,Option.map_some,advances]
        rfl
      exact other object same
    | true =>
      right
      refine ⟨row,rfl,advances,?_⟩
      funext object
      by_cases same : object = change.key
      · rw [same,own,stored,Option.map_some,advances,update_self]
        rfl
      rw [update_of_ne same]
      exact other object same

theorem settled_values (change : Change) (row : ObjectState) : (settled change row).present = row.present ∧ (settled change row).version = row.version := by
  unfold settled
  split
  · exact ⟨rfl,rfl⟩
  exact ⟨rfl,rfl⟩

theorem settled_carries {sequence} (told : Told accepted change) (advances : settles change row)
    (held : (settled change row).sequence = some sequence) : ∃ receipt, change.receipt = some receipt ∧ receipt.acceptedSequence = sequence ∧
      Carries (accepted sequence) change.key (settled change row) := by
  obtain ⟨agrees,newer⟩ := and_eq_true_iff.mp advances
  unfold settled at held ⊢
  cases given : change.receipt with
  | some receipt =>
    simp only [given] at held
    cases held
    refine ⟨receipt,rfl,rfl,?_⟩
    unfold Carries Change.matches at *
    simp only [and_eq_true,decide_eq_true_eq] at agrees
    rw [told receipt given]
    exact ⟨rfl,agrees.1,agrees.2,rfl⟩
  | none =>
    simp only [given] at held newer
    simp [held] at newer

theorem settleRow_keeps (told : Told accepted change) (sound : Sound accepted s) : Keeps accepted change.receipt s (settleRow change s) next := by
  have same : Forall₂ Reshaped s.batches (settleRow change s).batches := reshaped_all s.batches
  rcases settleRow_cases change s with ledger | ⟨row,stored,advances,ledger⟩
  · have passes : Passes s (settleRow change s) := ⟨ledger,rfl,same⟩
    exact passes.keeps sound
  refine ⟨⟨sound.ids,sound.single,sound.pending,sound.bounded,sound.objects,sound.versions,?_,?_⟩,Lasting.rfl,?_,.inr same⟩
  · intro batch mem isOpen version item held
    obtain ⟨old,there,present,last⟩ := sound.current batch mem isOpen version item held
    unfold Current
    rw [ledger]
    by_cases own : item.object = change.key
    · rw [own,stored] at there
      cases there
      rw [own,update_self]
      have values := settled_values change row
      exact ⟨_,rfl,values.1.trans present,values.2.trans last⟩
    rw [update_of_ne own]
    exact ⟨old,there,present,last⟩
  · intro object new sequence there held
    rw [ledger] at there
    by_cases own : object = change.key
    · rw [own,update_self] at there
      cases there
      obtain ⟨_,-,-,carries⟩ := settled_carries told advances held
      rw [own]
      exact carries
    rw [update_of_ne own] at there
    exact sound.carries object new sequence there held
  refine Effects.row ledger ?_ ?_ ?_
  · intro _ _ there held
    rw [stored] at there
    cases there
    obtain ⟨-,newer⟩ := and_eq_true_iff.mp advances
    cases given : change.receipt with
    | some receipt =>
      refine ⟨receipt,rfl,?_,?_⟩
      · unfold settled
        rw [given]
      simp only [given,held,Option.all_some,and_eq_true,decide_eq_true_eq] at newer
      exact Nat.le_of_lt newer.2
    | none => simp [given,held] at newer
  · intro _ held
    obtain ⟨receipt,given,number,-⟩ := settled_carries told advances held
    exact ⟨receipt,given,number⟩
  · exact fun batch mem closed => ⟨batch,mem,rfl,closed,rfl⟩

section
variable (told : Told accepted change) (receipt : request.receipt = change.receipt)
include told receipt

theorem settle_obeys : Obeys (terms accepted name request) (settleDuplicateHighWater change) s := by
  intro t _ sound
  refine ⟨⟨?_,?_⟩,trivial⟩
  · show Keeps accepted request.receipt t (settleRow change t) _
    rw [receipt]
    exact settleRow_keeps told sound
  dsimp only
  split
  · trivial
  apply reading
  intro later _ _
  split
  · trivial
  trivial

theorem writeOpen_obeys (known : ∃ row ∈ s.batches, row.id = batchId ∧ row.policyVersion = change.target.policyVersion) :
    Obeys (terms accepted name request) (writeOpen name change batchId baseline) s := by
  apply obeys_transact
  · intro t u counts relied sound done
    rcases openStatements_batch done with ⟨passes,lost⟩ | ⟨fenced,written,put_,authorized,found,allowed,passes⟩
    · refine ⟨passes.keeps sound,?_⟩
      split
      · trivial
      split
      · exact settle_obeys told receipt
      trivial
    rw [if_neg (by rw [fenced]; decide),if_neg (by rw [written]; decide)]
    refine ⟨?_,trivial⟩
    have result : stagedOrDuplicate counts = .done .staged := by
      unfold stagedOrDuplicate
      rw [if_pos put_]
    rw [result]
    show Keeps accepted request.receipt t u _
    rw [receipt]
    refine put_keeps Lasting.rfl (fun _ mem => mem) rfl sound told ⟨?_,allowed⟩ passes
    obtain ⟨row,mem,same,isOpen,room⟩ := found
    obtain ⟨old,stored,sameId,version⟩ := known
    obtain ⟨_,there,keptId,keptVersion⟩ := relied old stored
    have equal := inj_on_of_nodup_map sound.ids mem there (by rw [same,keptId,sameId])
    have current : change.target.policyVersion = t.policyVersion :=
      of_decide_eq_true (and_eq_true_iff.mp authorized).1
    refine ⟨row,mem,same,isOpen,?_,room⟩
    rw [equal,keptVersion,version,current]
  · exact fun _ sound => Passes.rfl.keeps sound
  · exact fun _ _ _ => trivial
end

theorem withBatch_sound (sound : Sound accepted s) (current : change.target.policyVersion = s.policyVersion)
    (free : ∀ row ∈ s.batches, row.id ≠ batchId ∧ (row.isOpen → row.policyVersion ≠ change.target.policyVersion)) :
    Sound accepted (withBatch change batchId s) := by
  refine ⟨?_,?_,?_,?_,?_,?_,?_,sound.carries⟩
  · show ((s.batches++[_]).map Batch.id).Nodup
    rw [map_append]
    refine sound.ids.append (nodup_singleton _) ?_
    intro _ old new
    obtain ⟨row,mem,rfl⟩ := mem_map.mp old
    exact (free row mem).1 (mem_singleton.mp new)
  · intro one mem other there first second same
    rcases mem_snoc.mp mem with old | rfl
    · rcases mem_snoc.mp there with kept | rfl
      · exact sound.single one old other kept first second same
      · exact absurd same ((free one old).2 first)
    rcases mem_append.mp there with kept | last
    · exact absurd same.symm ((free other kept).2 second)
    exact (mem_singleton.mp last).symm
  · intro row mem unsealed
    rcases mem_snoc.mp mem with old | rfl
    · exact sound.pending row old unsealed
    rfl
  · intro row mem unsealed
    rcases mem_snoc.mp mem with old | rfl
    · exact sound.bounded row old unsealed
    exact Nat.zero_le _
  · intro row mem
    rcases mem_snoc.mp mem with old | rfl
    · exact sound.objects row old
    exact nodup_nil
  · intro row mem
    rcases mem_snoc.mp mem with old | rfl
    · exact sound.versions row old
    exact Int.le_of_eq current
  intro row mem isOpen version item held
  rcases mem_snoc.mp mem with old | rfl
  · exact sound.current row old isOpen version item held
  cases held

section
variable (told : Told accepted change) (receipt : request.receipt = change.receipt)
include told receipt

theorem writeNew_obeys : Obeys (terms accepted name request) (writeNew name change baseline) s := by
  apply obeys_transact
  · intro t u counts _ sound done
    rcases newStatements_batch done with ⟨passes,lost⟩ | ⟨written,inserted,put_,authorized,free,allowed,passes⟩
    · rw [if_pos lost]
      exact ⟨passes.keeps sound,settle_obeys told receipt⟩
    rw [if_neg (by rw [written]; decide),if_neg (by rw [inserted]; decide)]
    refine ⟨?_,trivial⟩
    have result : stagedOrDuplicate counts = .done .staged := by
      unfold stagedOrDuplicate
      rw [if_pos put_]
    rw [result]
    show Keeps accepted request.receipt t u _
    rw [receipt]
    have current : change.target.policyVersion = t.policyVersion :=
      of_decide_eq_true (and_eq_true_iff.mp authorized).1
    have grown : ∀ old ∈ t.batches, old ∈ (withBatch change name t).batches :=
      fun old mem => mem_append_left _ mem
    refine put_keeps ?_ grown rfl (withBatch_sound sound current free) told ⟨?_,allowed⟩ passes
    · exact fun old mem => ⟨old,grown old mem,rfl,rfl⟩
    exact ⟨_,mem_append_right _ (mem_singleton_self _),rfl,rfl,current,.inr (Nat.succ_pos 49)⟩
  · exact fun _ sound => Passes.rfl.keeps sound
  · exact fun _ _ _ => trivial

theorem stageInto_obeys : Obeys (terms accepted name request) (stageInto name change state) s := by
  apply reading
  intro first _ _
  split
  · exact writeNew_obeys told receipt
  rename_i row found
  have mem := mem_of_find?_eq_some found
  have holds := find?_some found
  simp only [and_eq_true,decide_eq_true_eq] at holds
  apply reading
  intro second relied _
  dsimp only
  split
  · intro t _ sound
    refine ⟨⟨?_,writeNew_obeys told receipt⟩,trivial⟩
    exact (sealBatch_passes row.id t).keeps sound
  apply writeOpen_obeys told receipt
  obtain ⟨kept,there,sameId,version⟩ := relied row mem
  exact ⟨kept,there,sameId,version.trans holds.1⟩

theorem candidate_obeys : Obeys (terms accepted name request) (stageAuthenticatedDeliveryChangeCandidate name change) s := by
  apply reading
  intro t _ _
  dsimp only
  split
  · trivial
  · trivial
  · exact settle_obeys told receipt
  exact stageInto_obeys told receipt
end

theorem stage_obeys (distinct : Distinct accepted (.stage target input)) :
    Obeys (terms accepted name (.stage target input)) (stageAuthenticatedDeliveryChangeForTarget name target input) s := by
  unfold stageAuthenticatedDeliveryChangeForTarget
  split
  · trivial
  rename_i change made
  obtain ⟨-,key,present,version,ordering⟩ := stageChange_some made
  have receipt : (Request.stage target input).receipt = change.receipt := by
    show (durableReceiptOrdering input).join = _
    rw [ordering]
    rfl
  have told : Told accepted change := by
    intro _ given
    apply distinct
    show (durableReceiptOrdering input).join.map _ = _
    rw [ordering]
    rw [given,key,present,version]
    rfl
  apply reading
  intro t _ _
  split
  · exact candidate_obeys told receipt
  trivial

theorem record_obeys : Obeys (terms accepted name (.record key present objectVersion eventAt))
      (recordAuthenticatedDeliveryObjectChange name key present objectVersion eventAt) s := by
  unfold recordAuthenticatedDeliveryObjectChange
  split
  · trivial
  dsimp only
  split
  · trivial
  apply reading
  intro t _ _
  split
  · trivial
  split
  · exact candidate_obeys nofun rfl
  trivial
end

theorem discipline (accepted : Nat → Accepted) : Discipline (setting accepted) (Sound accepted) (terms accepted) where
  same _ _ _ := Lasting.rfl
  trans _ _ := Lasting.next
  stable _ _ {_ _ _} _ _ := trivial
  inside _ _ _ sound _ := sound
  entered name request s _ distinct := by
    cases request with
    | stage => exact stage_obeys distinct
    | record => exact record_obeys
  outside s t sound moved :=
    ⟨sound.reshaped moved.ledger moved.policyVersion moved.batches,fun _ _ => lasting_reshaped moved.batches⟩
  kept _ _ _ _ _ _ _ keeps := ⟨keeps.sound,fun _ _ _ => keeps.lasting⟩
end LedgeTopOps.DeliveryChanges

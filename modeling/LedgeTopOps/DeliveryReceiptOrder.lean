import LedgeTopOps.DeliveryInterleaving

namespace LedgeTopOps.DeliveryChanges
open StepRuns AtomicPrograms ClosedCodec WorkspacePublication Function

abbrev Deliveries := System Store Nat Request StageResult
abbrev Taken := Transition Deliveries (Event Nat Request)

def itemTable (s : Store) : List (Nat × List Item) := s.batches.map fun batch => (batch.id,batch.items)
def Requested (name : Nat) (event : Event Nat Request) : Prop := event = .call name ∨ event = .failed name

def Forward (before after : Store) : Prop :=
  ∀ object row sequence, before.ledger object = some row → row.sequence = some sequence →
    ∃ later reached, after.ledger object = some later ∧ later.sequence = some reached ∧ sequence ≤ reached

def Closed (before after : Store) : Prop :=
  ∀ batch ∈ before.batches, batch.isSealed = true →
    ∃ later ∈ after.batches, later.id = batch.id ∧ later.isSealed = true ∧ later.items = batch.items

structure ReceiptOrdered (history : List Taken) (final : Deliveries) : Prop where
  forward : ∀ taken ∈ history, Forward taken.after.store final.store
  held : ∀ object row sequence, final.store.ledger object = some row → row.sequence = some sequence →
    ∃ name request program event, final.programs name = some (request,program) ∧ request.event = some (sequence,event)
  carries : ∀ object row sequence, final.store.ledger object = some row → row.sequence = some sequence →
    ∀ name request program event, final.programs name = some (request,program) → request.event = some (sequence,event) →
      Carries event object row
  legacy : ∀ taken ∈ history, ∀ name request program, Requested name taken.event →
    final.programs name = some (request,program) → request.receipt = none →
      ∀ object row sequence, taken.before.store.ledger object = some row → row.sequence = some sequence →
        taken.after.store.ledger object = some row
  idle : ∀ taken ∈ history, ∀ name request result, Requested name taken.event →
    final.programs name = some (request,.done result) → result ≠ .staged →
      itemTable taken.after.store = itemTable taken.before.store
  bounded : ∀ batch ∈ final.store.batches, batch.isSealed = false → batch.items.length ≤ maxItems
  ids : (final.store.batches.map Batch.id).Nodup
  closed : ∀ taken ∈ history, Closed taken.after.store final.store
  current : ∀ batch ∈ final.store.batches, batch.isOpen = true → batch.policyVersion = final.store.policyVersion →
    ∀ item ∈ batch.items, Current final.store.ledger item

theorem Forward.rfl : Forward s s := fun _ row sequence stored held => ⟨row,sequence,stored,held,Nat.le_refl _⟩

theorem Forward.next (first : Forward s t) (second : Forward t u) : Forward s u := by
  intro object row sequence stored held
  obtain ⟨middle,reached,there,own,ordered⟩ := first object row sequence stored held
  obtain ⟨last,ended,present,final,further⟩ := second object middle reached there own
  exact ⟨last,ended,present,final,ordered.trans further⟩

theorem Closed.rfl : Closed s s := fun batch mem closed => ⟨batch,mem,Eq.refl _,closed,Eq.refl _⟩

theorem Closed.next (first : Closed s t) (second : Closed t u) : Closed s u := by
  intro batch mem closed
  obtain ⟨middle,there,sameId,still,same⟩ := first batch mem closed
  obtain ⟨last,present,id,ends,items⟩ := second middle there still
  exact ⟨last,present,id.trans sameId,ends,items.trans same⟩

theorem Effects.forward (effects : Effects receipt s t) : Forward s t := by
  intro object row sequence stored held
  obtain ⟨later,reached,there,own,ordered,-⟩ := effects.advances object row sequence stored held
  exact ⟨later,reached,there,own,ordered⟩

theorem items_reshaped (pairs : List.Forall₂ Reshaped older newer) :
    (newer.map fun batch => (batch.id,batch.items)) = older.map fun batch => (batch.id,batch.items) := by
  induction pairs with
  | nil => rfl
  | cons head _ ih => rw [List.map_cons,List.map_cons,head.id,head.items,ih]

theorem itemTable_reshaped (pairs : List.Forall₂ Reshaped s.batches t.batches) : itemTable t = itemTable s :=
  items_reshaped pairs

section
variable {accepted : Nat → Accepted} {history : List Taken} {before after : Deliveries}

theorem receipt_event {request : Request} (held : request.receipt = some receipt) : ∃ event, request.event = some (receipt.acceptedSequence,event) := by
  cases request with
  | stage _ input =>
    exact ⟨_,congrArg (Option.map _) held⟩
  | record => cases held

theorem step_effects (orderly : Orderly (Sound accepted) (terms accepted) before) (moved : Step (setting accepted) before event after) :
    (Effects none before.store after.store ∧ itemTable after.store = itemTable before.store) ∨
    ∃ name request program, event = .call name ∧ after.programs name = some (request,program) ∧ Effects request.receipt before.store after.store ∧
      (program = .done .staged ∨ itemTable after.store = itemTable before.store) := by
  rcases (discipline accepted).effect orderly moved with same | ⟨-,outside⟩ | ⟨name,request,program,called,stored,-,keeps⟩
  · rw [same]
    exact .inl ⟨.reshaped rfl (reshaped_all _),rfl⟩
  · exact .inl ⟨.reshaped outside.ledger outside.batches,itemTable_reshaped outside.batches⟩
  refine .inr ⟨name,request,program,called,stored,keeps.effects,?_⟩
  rcases keeps.idle with staged | pairs
  · exact .inl staged
  exact .inr (itemTable_reshaped pairs)

structure Kept (accepted : Nat → Accepted) (history : List Taken) (current : Deliveries) : Prop where
  orderly : Orderly (Sound accepted) (terms accepted) current
  forward : ∀ taken ∈ history, Forward taken.after.store current.store
  closed : ∀ taken ∈ history, Closed taken.after.store current.store
  held : ∀ object row sequence, current.store.ledger object = some row → row.sequence = some sequence →
    ∃ name request program event, current.programs name = some (request,program) ∧ request.event = some (sequence,event)
  legacy : ∀ taken ∈ history, ∀ name, Requested name taken.event → ∃ request program,
    current.programs name = some (request,program) ∧ (request.receipt = none →
      ∀ object row sequence, taken.before.store.ledger object = some row → row.sequence = some sequence →
        taken.after.store.ledger object = some row)
  idle : ∀ taken ∈ history, ∀ name, Requested name taken.event →
    itemTable taken.after.store = itemTable taken.before.store ∨ ∃ request, current.programs name = some (request,.done .staged)

theorem requested_program (moved : Step (setting accepted) before event after) (requested : Requested name event) :
    ∃ request program, after.programs name = some (request,program) := by
  cases moved with
  | start | outside => rcases requested with same | same <;> cases same
  | call _ _ =>
    rcases requested with same | same
    · cases same
      exact ⟨_,_,update_self ..⟩
    cases same
  | failed _ _ =>
    rcases requested with same | same
    · cases same
    cases same
    exact ⟨_,_,update_self ..⟩

section
variable (kept : Kept accepted history before) (moved : Step (setting accepted) before event after)
include kept moved

theorem Kept.rows (object : Text) (row : ObjectState) (sequence : Nat) (stored : after.store.ledger object = some row) (held : row.sequence = some sequence) :
    ∃ name request program event, after.programs name = some (request,program) ∧ request.event = some (sequence,event) := by
  have earlier : (∃ old, before.store.ledger object = some old ∧ old.sequence = some sequence) →
      ∃ name request program event, after.programs name = some (request,program) ∧ request.event = some (sequence,event) := by
    intro older
    obtain ⟨old,there,own⟩ := older
    obtain ⟨name,request,_,reported,found,same⟩ := kept.held object old sequence there own
    obtain ⟨further,stands⟩ := moved.stands found
    exact ⟨name,request,further,reported,stands,same⟩
  rcases step_effects kept.orderly moved with ⟨effects,-⟩ | ⟨name,request,program,-,found,effects,-⟩
  · rcases effects.own object row sequence stored held with older | ⟨receipt,none_,-⟩
    · exact earlier older
    · cases none_
  rcases effects.own object row sequence stored held with older | ⟨receipt,given,same⟩
  · exact earlier older
  obtain ⟨reported,own⟩ := receipt_event given
  exact ⟨name,request,program,reported,found,by rw [own,same]⟩

theorem Kept.step : Kept accepted (history++[⟨before,event,after⟩]) after := by
  have effects := step_effects kept.orderly moved
  have forward : Forward before.store after.store := by
    rcases effects with ⟨free,-⟩ | ⟨name,request,program,-,-,own,-⟩
    · exact free.forward
    exact own.forward
  have closed : Closed before.store after.store := by
    rcases effects with ⟨free,-⟩ | ⟨name,request,program,-,-,own,-⟩
    · exact free.closed
    exact own.closed
  refine ⟨(discipline accepted).step kept.orderly moved,?_,?_,kept.rows moved,?_,?_⟩
  · intro taken mem
    rcases mem_snoc.mp mem with old | rfl
    · exact (kept.forward taken old).next forward
    exact Forward.rfl
  · intro taken mem
    rcases mem_snoc.mp mem with old | rfl
    · exact (kept.closed taken old).next closed
    exact Closed.rfl
  · intro taken mem name requested
    rcases mem_snoc.mp mem with old | rfl
    · obtain ⟨request,_,found,rows⟩ := kept.legacy taken old name requested
      obtain ⟨further,stands⟩ := moved.stands found
      exact ⟨request,further,stands,rows⟩
    obtain ⟨request,program,found⟩ := requested_program moved requested
    refine ⟨request,program,found,fun legacy object row sequence stored held => ?_⟩
    rcases effects with ⟨free,-⟩ | ⟨other,asked,further,rfl,there,own,-⟩
    · obtain ⟨_,_,present,-,-,same⟩ := free.advances object row sequence stored held
      rw [present,same rfl]
    rcases requested with same | same
    · cases same
      cases found.symm.trans there
      obtain ⟨_,_,present,-,-,same⟩ := own.advances object row sequence stored held
      rw [present,same legacy]
    cases same
  intro taken mem name requested
  rcases mem_snoc.mp mem with old | rfl
  · rcases kept.idle taken old name requested with same | ⟨request,staged⟩
    · exact .inl same
    · exact .inr ⟨request,moved.finished staged⟩
  rcases effects with ⟨-,same⟩ | ⟨other,asked,further,rfl,there,-,either⟩
  · exact .inl same
  rcases either with rfl | same
  · rcases requested with equal | equal
    · cases equal
      exact .inr ⟨asked,there⟩
    · cases equal
  exact .inl same
end

theorem untold_sound (policyVersion : Int) (authority : Target → Bool → Nat → Text → Bool)
    (selected : Text → Bool → Nat → Option Target) : Sound accepted (untold policyVersion authority selected) where
  ids := List.nodup_nil
  single := nofun
  pending := nofun
  bounded := nofun
  objects := nofun
  versions := nofun
  current := nofun
  carries := nofun

theorem history_kept (sound : Sound accepted store) (rows : ∀ object, store.ledger object = none)
    (path : Runs (Recorded (Step (setting accepted))) (System.initial store) history final) : Kept accepted history final := by
  apply path.preserves_history (Kept accepted)
  · intro _ s _ t kept moved
    obtain ⟨rfl,rfl,ran⟩ := moved
    exact kept.step ran
  · constructor
    case orderly => exact Orderly.started store sound
    case held =>
      intro object row _ stored
      change store.ledger object = some row at stored
      rw [rows object] at stored
      cases stored
    all_goals
      intro _ mem
      cases mem
end

theorem receipt_ordered (accepted : Nat → Accepted) (policyVersion : Int) (authority : Target → Bool → Nat → Text → Bool)
    (selected : Text → Bool → Nat → Option Target) (history : List Taken) (final : Deliveries)
    (path : Runs (Recorded (Step (setting accepted))) (System.initial (untold policyVersion authority selected)) history final) :
    ReceiptOrdered history final := by
  have kept := history_kept (untold_sound policyVersion authority selected) (fun _ => rfl) path
  have sound := kept.orderly.valid
  have distinct : ∀ name request program, final.programs name = some (request,program) → Distinct accepted request :=
    entered_requests (fun _ _ _ entered => entered) path.events
  refine ⟨kept.forward,kept.held,?_,?_,?_,sound.bounded,sound.ids,kept.closed,sound.current⟩
  · intro object row sequence stored held name request program event found reported
    rw [←distinct name request program found sequence event reported]
    exact sound.carries object row sequence stored held
  · intro taken member name _ _ requested found legacy
    obtain ⟨_,_,there,rows⟩ := kept.legacy taken member name requested
    cases found.symm.trans there
    exact rows legacy
  intro taken member name _ _ requested found different
  rcases kept.idle taken member name requested with same | ⟨asked,staged⟩
  · exact same
  cases found.symm.trans staged
  exact absurd rfl different

def recipient : Target := ⟨List.replicate 10 [0x31],1,1,true,.both,.client,[0x64]⟩

def upload (sequence : Nat) : Request :=
  .stage recipient ⟨[0x64,0x31],true,some [0x76,sequence.toUInt16],some sequence,some sequence,some [0x70,sequence.toUInt16]⟩

def reported (sequence : Nat) : Accepted := ⟨[0x64,0x31],true,some [0x76,sequence.toUInt16],[0x70,sequence.toUInt16]⟩

theorem upload_distinct (sequence : Nat) (reports : (upload sequence).event = some (sequence,reported sequence)) : Distinct reported (upload sequence) := by
  intro _ _ held
  rw [reports] at held
  cases held
  rfl

theorem seal_outside (id : Nat) (s : Store) : Outside s (sealBatch id s) :=
  ⟨rfl,(sealBatch_passes id s).batches,Int.le_refl _⟩

def ready : Store := untold 1 (fun _ _ _ _ => true) fun _ _ _ => none

def uploadEvents : List (Event Nat Request) :=
  [.start 1 (upload 1),.call 1,.call 1,.start 2 (upload 2),.call 2,.call 2,.call 2,.call 2,.call 1,.call 1,.call 1, .call 1,.call 1,.outside]

def uploaded : Deliveries := uploadEvents.foldl (System.play (setting reported) (sealBatch 2)) (System.initial ready)

theorem receipt_ordered_example : ReceiptOrdered (trace (System.play (setting reported) (sealBatch 2)) (System.initial ready) uploadEvents) uploaded ∧
      uploaded.programs 1 = some (upload 1,.done .threw) ∧ uploaded.programs 2 = some (upload 2,.done .staged) :=
  ⟨receipt_ordered reported 1 _ _ _ _ (System.played ⟨⟨rfl,upload_distinct 1 rfl⟩,trivial,trivial,
    ⟨rfl,upload_distinct 2 rfl⟩,trivial,trivial,trivial,trivial,trivial,trivial,trivial,trivial,trivial,
    seal_outside 2 _,trivial⟩),rfl,rfl⟩
end LedgeTopOps.DeliveryChanges

import LedgeTopOps.UploadVerificationRuns

namespace LedgeTopOps.UploadVerification
open List AtomicPrograms StepRuns Option
open Bool (and_eq_true)

abbrev ProofColumns := Option String × Option String × Option Nat × Option String × Option Nat × Option String

def Upload.proof (row : Upload) : ProofColumns :=
  (row.verifiedSha256,row.verifiedObjectEtag,row.verifiedObjectBytes,row.verifiedObjectVersion,row.verifiedAt,row.verificationReceiptToken)

def Upload.proven (row : Upload) : Prop := row.status = .quarantined ∧ row.verificationState = .verified
def Clean (row : Upload) : Prop := row.status = .quarantined → row.verificationState ≠ .verified → row.proof = (none,none,none,none,none,none)

structure Proving (name : Nat) (s t : Store) (token sha256 : String) (identity : ProofIdentity) (object : R2Object) : Prop where
  active : s.verifying token = true
  reported : identityMatches object identity = true
  seen : ∃ row, ⟨name,some object,row⟩ ∈ s.sights
  written : t.row.proof = (some (toLowerCase sha256),some (toLowerCase object.etag),some object.size,some object.version,some s.now,some token)

structure Moved (name : Nat) (s t : Store) (request : Request) : Prop where
  clean : Clean s.row → Clean t.row
  verification : ∀ a b, s.verifying a = true → t.verifying b = true → a = b
  pickup : ∀ a b, s.pickingUp a = true → t.pickingUp b = true → a = b
  kept : s.row.proven → s.pickupActive = true → t.row.status = .quarantined → t.row.verificationState = .verified ∧ t.row.proof = s.row.proof
  honest : t.row.proven → (s.row.proven ∧ t.row.proof = s.row.proof) ∨
    ∃ token sha256 identity object, request = .verification (.verified token identity sha256) ∧ Proving name s t token sha256 identity object
  accepted : t.row.status = .accepted → s.row.status = .accepted ∨ ∃ sha256 token, request = .accepted sha256 token ∧ s.row.status = .quarantined ∧
    s.row.pickupState = .scanning ∧ s.row.pickup.claimToken = some token ∧ ∃ row, ⟨name,none,row⟩ ∈ s.sights
  final : s.row.status = .accepted → t.row.status = .accepted

section
variable {s t : Store}

theorem verifying_iff : s.verifying token ↔ s.row.status = .quarantined ∧ s.row.verificationState = .scanning ∧
    s.row.verification.claimToken = some token ∧ s.row.verification.unexpired s.now := by
  unfold Store.verifying Store.quarantined Lease.heldBy
  rw [and_eq_true,and_eq_true,and_eq_true,decide_eq_true_eq,decide_eq_true_eq,decide_eq_true_eq,and_assoc,and_assoc]

theorem pickingUp_iff : s.pickingUp token ↔ s.row.status = .quarantined ∧ s.row.pickupState = .scanning ∧
    s.row.pickup.claimToken = some token ∧ s.row.pickup.unexpired s.now := by
  unfold Store.pickingUp Store.quarantined Lease.heldBy
  rw [and_eq_true,and_eq_true,and_eq_true,decide_eq_true_eq,decide_eq_true_eq,decide_eq_true_eq,and_assoc,and_assoc]

theorem lapsed_expired {lease : Lease} {now : Nat} (lapsed : lease.lapsed now) : lease.unexpired now = false := by
  unfold Lease.lapsed at lapsed
  unfold Lease.unexpired
  cases expires : lease.leaseExpiresAt with
  | none => rfl
  | some =>
    rw [expires] at lapsed
    exact decide_eq_false (Nat.not_lt.mpr (of_decide_eq_true lapsed))

theorem oneVerification (mine : s.verifying a) (its : s.verifying b) : a = b :=
  some.inj ((verifying_iff.mp mine).2.2.1.symm.trans (verifying_iff.mp its).2.2.1)

theorem onePickup (mine : s.pickingUp a) (its : s.pickingUp b) : a = b :=
  some.inj ((pickingUp_iff.mp mine).2.2.1.symm.trans (pickingUp_iff.mp its).2.2.1)

theorem still_moved (same : t.row = s.row) : Moved name s t request where
  clean clean := same ▸ clean
  verification a b mine its := by
    have later := (verifying_iff.mp its).2.2.1
    rw [same] at later
    exact some.inj ((verifying_iff.mp mine).2.2.1.symm.trans later)
  pickup a b mine its := by
    have later := (pickingUp_iff.mp its).2.2.1
    rw [same] at later
    exact some.inj ((pickingUp_iff.mp mine).2.2.1.symm.trans later)
  kept proven _ _ := same.symm ▸ ⟨proven.2,rfl⟩
  honest proven := .inl ⟨same ▸ proven,congrArg Upload.proof same⟩
  accepted status := .inl (same ▸ status)
  final status := same.symm ▸ status
end

section
theorem unproven_moved (is : t = { s with row }) (status : row.status = s.row.status)
    (pickup : row.pickup = s.row.pickup) (unproven : row.verificationState ≠ .verified) (clean : row.status = .quarantined → Clean s.row → row.proof = (none,none,none,none,none,none))
    (free : s.row.proven → s.pickupActive = false) (claims : ∀ a b, s.verifying a → t.verifying b → a = b) : Moved name s t request := by
  subst is
  refine ⟨fun before quarantined _ => clean quarantined before,claims,fun a b mine its => ?_,fun proven active _ => ?_,fun proven => absurd proven.2 unproven,fun accepted => .inl (status ▸ accepted),
    fun accepted => status.trans accepted⟩
  · have later := (pickingUp_iff.mp its).2.2.1
    rw [show ({ s with row } : Store).row.pickup = s.row.pickup from pickup] at later
    exact some.inj ((pickingUp_iff.mp mine).2.2.1.symm.trans later)
  rw [free proven] at active
  cases active

theorem claimVerification_moved (done : claimVerification s token = some t) : Moved name s t request := by
  obtain ⟨met,is⟩ := update_some done
  rw [and_eq_true] at met
  refine unproven_moved is rfl rfl nofun (fun _ _ => rfl) (fun proven => ?_) fun a b mine _ => ?_
  · rw [proven.2] at met
    exact Bool.not_eq_true' _ ▸ met.2
  obtain ⟨_,scanning,_,active⟩ := verifying_iff.mp mine
  rw [scanning] at met
  rw [lapsed_expired met.2] at active
  cases active

theorem releaseVerification_moved (done : releaseVerification s token = some t) : Moved name s t request := by
  obtain ⟨met,is⟩ := update_some done
  rw [and_eq_true,decide_eq_true_eq] at met
  have unproven : s.row.verificationState ≠ .verified := fun verified => by
    rw [met.1] at verified
    cases verified
  refine unproven_moved is rfl rfl nofun (fun quarantined before => before quarantined unproven) (fun proven => ?_) fun a b _ its => ?_
  · rw [proven.2] at met
    cases met.1
  rw [is] at its
  cases (verifying_iff.mp its).2.1

theorem heartbeatVerification_moved (done : heartbeatVerification s token = some t) : Moved name s t request := by
  obtain ⟨met,is⟩ := update_some done
  obtain ⟨quarantined,scanning,_⟩ := verifying_iff.mp met
  have unproven : s.row.verificationState ≠ .verified := fun verified => by
    rw [scanning] at verified
    cases verified
  refine unproven_moved is rfl rfl unproven (fun _ before => before quarantined unproven) (fun proven => absurd proven.2 unproven) fun a b mine its => ?_
  rw [is] at its
  exact some.inj ((verifying_iff.mp mine).2.2.1.symm.trans (verifying_iff.mp its).2.2.1)

theorem retryVerification_moved (done : retryVerification s token seconds errorCode = some t) : Moved name s t request := by
  obtain ⟨met,is⟩ := update_some done
  obtain ⟨_,scanning,_⟩ := verifying_iff.mp met
  refine unproven_moved is rfl rfl nofun (fun _ _ => rfl) (fun proven => ?_) fun a b _ its => ?_
  · rw [proven.2] at scanning
    cases scanning
  rw [is] at its
  cases (verifying_iff.mp its).2.1

theorem invalidateVerification_moved (done : invalidateVerification s seconds errorCode identity = some t) : Moved name s t request := by
  obtain ⟨met,is⟩ := update_some done
  rw [and_eq_true] at met
  refine unproven_moved is rfl rfl nofun (fun _ _ => rfl) (fun _ => Bool.not_eq_true' _ ▸ met.2) fun a b _ its => ?_
  rw [is] at its
  cases (verifying_iff.mp its).2.1

theorem proveVerification_moved (seen : ∃ row, ⟨name,some object,row⟩ ∈ s.sights)
    (reported : identityMatches object identity) (done : proveVerification s token sha256 object = some t) :
    Moved name s t (.verification (.verified token identity sha256)) := by
  obtain ⟨met,is⟩ := update_some done
  obtain ⟨_,scanning,_⟩ := verifying_iff.mp met
  subst is
  refine ⟨fun _ _ other => absurd rfl other,fun a b _ its => ?_,fun a b mine its => ?_,fun proven _ _ => ?_,fun _ => ?_,fun accepted => ?_,fun accepted => accepted⟩
  · cases (verifying_iff.mp its).2.1
  · exact some.inj ((pickingUp_iff.mp mine).2.2.1.symm.trans (pickingUp_iff.mp its).2.2.1)
  · rw [proven.2] at scanning
    cases scanning
  · exact .inr ⟨token,sha256,identity,object,rfl,met,reported,seen,rfl⟩
  exact .inl accepted
end

section
theorem pickup_moved {pickupState : PickupState} {pickup : Lease} (is : t = { s with row := { s.row with pickupState,pickup } })
    (claims : ∀ a b, s.pickingUp a → t.pickingUp b → a = b) : Moved name s t request := by
  subst is
  exact ⟨fun clean => clean,fun a b mine its => some.inj ((verifying_iff.mp mine).2.2.1.symm.trans (verifying_iff.mp its).2.2.1),claims,
    fun proven _ _ => ⟨proven.2,rfl⟩,fun proven => .inl ⟨proven,rfl⟩,fun accepted => .inl accepted,fun accepted => accepted⟩

theorem claimPickup_moved (done : claimPickup s token = some t) : Moved name s t request := by
  obtain ⟨met,is⟩ := update_some done
  rw [and_eq_true] at met
  refine pickup_moved is fun a b mine _ => ?_
  obtain ⟨_,scanning,_,active⟩ := pickingUp_iff.mp mine
  rw [scanning] at met
  rw [lapsed_expired met.2] at active
  cases active

theorem releasePickup_moved (done : releasePickup s token = some t) : Moved name s t request := by
  obtain ⟨_,is⟩ := update_some done
  refine pickup_moved is fun a b _ its => ?_
  rw [is] at its
  cases (pickingUp_iff.mp its).2.1

theorem heartbeatPickup_moved (done : heartbeatPickup s token = some t) : Moved name s t request := by
  obtain ⟨_,is⟩ := update_some done
  have same : t = { s with row := { s.row with pickupState := s.row.pickupState,pickup := s.row.pickup.extended s.now } } := is
  refine pickup_moved same fun a b mine its => ?_
  rw [is] at its
  exact some.inj ((pickingUp_iff.mp mine).2.2.1.symm.trans (pickingUp_iff.mp its).2.2.1)

theorem retryPickup_moved (done : retryPickup s token seconds errorCode = some t) : Moved name s t request := by
  obtain ⟨_,is⟩ := update_some done
  refine pickup_moved is fun a b _ its => ?_
  rw [is] at its
  cases (pickingUp_iff.mp its).2.1

theorem acceptUpload_moved (seen : ∃ row, ⟨name,none,row⟩ ∈ s.sights) (done : acceptUpload s token sha256 = some t) :
    Moved name s t (.accepted sha256 token) := by
  obtain ⟨met,is⟩ := update_some done
  unfold Store.quarantined Lease.heldBy at met
  rw [and_eq_true,and_eq_true,decide_eq_true_eq,decide_eq_true_eq,decide_eq_true_eq] at met
  subst is
  refine ⟨fun _ => nofun,fun a b _ its => ?_,fun a b _ its => ?_,fun _ _ => nofun,fun proven => (nomatch proven.1),fun _ => ?_,fun _ => rfl⟩
  · cases (verifying_iff.mp its).1
  · cases (pickingUp_iff.mp its).1
  exact .inr ⟨sha256,token,rfl,met.1.1,met.1.2,met.2,seen⟩

theorem effect_moved (effect : Effect name s t request) : Moved name s t request := by
  rcases effect with rfl | rfl | written
  · exact still_moved rfl
  · exact still_moved rfl
  cases request with
  | verification input =>
    cases input with
    | scanning => exact written.elim claimVerification_moved releaseVerification_moved
    | heartbeat => exact heartbeatVerification_moved written
    | retry => exact retryVerification_moved written
    | verified =>
      obtain ⟨_,row,sight,reported,done⟩ := written
      exact proveVerification_moved ⟨row,sight⟩ reported done
    | invalidate => exact invalidateVerification_moved written
  | pickup input =>
    cases input with
    | scanning => exact written.elim claimPickup_moved releasePickup_moved
    | heartbeat => exact heartbeatPickup_moved written
    | retry => exact retryPickup_moved written
  | accepted => exact acceptUpload_moved written.1 written.2
  | serve => exact written.elim
end

section
variable {before after : World} {history : List (Transition World (Event Nat Request))}

theorem discipline : Discipline setting (fun s => Clean s.row) terms where
  same _ _ _ := prefix_rfl
  trans _ _ _ _ _ first second := first.trans second
  stable name request answer s t holds later := by
    cases request with
    | serve row =>
      cases answer with
      | served =>
        obtain ⟨⟨row,sight⟩,other,read,looked,available⟩ := holds
        exact ⟨⟨row,later.subset sight⟩,other,read,later.subset looked,available⟩
      | _ => trivial
    | _ => trivial
  inside _ _ _ _ _ := trivial
  entered name request s _ _ := code_obeys name request s
  outside s t clean moved := by
    obtain ⟨_,_,_,rfl⟩ := moved
    exact ⟨clean,fun _ _ => prefix_rfl⟩
  kept name request s t _ clean _ effect := by
    refine ⟨(effect_moved effect).clean clean,fun _ _ _ => ?_⟩
    rcases effect with rfl | rfl | written
    · exact prefix_rfl
    · exact prefix_append _ _
    have same : s.sights = t.sights := (written_sights written).symm
    exact ⟨[],(append_nil _).trans same⟩

def fresh (object : Option R2Object) (now : Nat) : Store :=
  ⟨⟨.quarantined,.awaitingVerification,⟨0,none,none,none,none,none⟩,none,none,none,none,none,none,.awaitingPickup,⟨0,none,none,none,none,none⟩⟩,object,now,[]⟩

def Answers (taken : Transition World (Event Nat Request)) (name : Nat) (request : Request) : Prop :=
  taken.event = .call name ∧ ∃ program, taken.after.programs name = some (request,program)

def Looked (front : List (Transition World (Event Nat Request))) (name : Nat) (object : Option R2Object) : Prop :=
  ∃ looked ∈ front, looked.event = .call name ∧ looked.before.store.object = object

def Proved (history : List (Transition World (Event Nat Request))) (row : Upload) : Prop :=
  ∃ front taken rest name token sha256 identity object, history = front++taken :: rest ∧ Answers taken name (.verification (.verified token identity sha256)) ∧
    taken.before.store.verifying token = true ∧ Looked front name (some object) ∧ identityMatches object identity = true ∧
    row.proof = (some (toLowerCase sha256),some (toLowerCase object.etag),some object.size,some object.version,some taken.before.store.now,some token)

def Received (history : List (Transition World (Event Nat Request))) : Prop :=
  ∃ front taken rest name sha256 token, history = front++taken :: rest ∧ Answers taken name (.accepted sha256 token) ∧
    taken.before.store.row.status = .quarantined ∧ taken.before.store.row.pickupState = .scanning ∧
    taken.before.store.row.pickup.claimToken = some token ∧ Looked front name none

structure Known (history : List (Transition World (Event Nat Request))) (s : Store) : Prop where
  sights : ∀ sight ∈ s.sights, ∃ looked ∈ history, looked.event = .call sight.name ∧ looked.before.store.object = sight.object ∧ looked.before.store.row = sight.row
  proved : s.row.proven → Proved history s.row
  received : s.row.status = .accepted → Received history

theorem step_moved (orderly : Orderly (fun s => Clean s.row) terms before) (taken : Step setting before event after) :
    (after.store.row = before.store.row ∧ after.store.sights = before.store.sights) ∨
      ∃ name request program, event = .call name ∧ after.programs name = some (request,program) ∧ Effect name before.store after.store request := by
  rcases discipline.effect orderly taken with same | ⟨_,object,now,_,is⟩ | ⟨name,request,program,called,found,_,effect⟩
  · rw [same]
    exact .inl ⟨rfl,rfl⟩
  · rw [is]
    exact .inl ⟨rfl,rfl⟩
  exact .inr ⟨name,request,program,called,found,effect⟩

theorem reached (clean : Clean start.row) (path : Runs (Step setting) (System.initial start) events after) :
    Orderly (fun s => Clean s.row) terms after := discipline.reached clean path

theorem Proved.later (proved : Proved history row) (last : Transition World (Event Nat Request)) {other : Upload} (same : other.proof = row.proof) :
    Proved (history++[last]) other := by
  obtain ⟨front,taken,rest,name,token,sha256,identity,object,split,answers,active,looked,reported,is⟩ := proved
  refine ⟨front,taken,rest++[last],name,token,sha256,identity,object,?_,answers,active,looked,reported,same.trans is⟩
  rw [split,append_assoc]
  rfl

theorem Received.later (received : Received history) (last : Transition World (Event Nat Request)) : Received (history++[last]) := by
  obtain ⟨front,taken,rest,name,sha256,token,split,holds⟩ := received
  refine ⟨front,taken,rest++[last],name,sha256,token,?_,holds⟩
  rw [split,append_assoc]
  rfl

theorem Known.step (known : Known history last.before.store)
    (orderly : Orderly (fun s => Clean s.row) terms last.before) (taken : Step setting last.before last.event last.after) :
    Known (history++[last]) last.after.store := by
  have looked : ∀ sight ∈ last.before.store.sights, ∃ looked ∈ history++[last], looked.event = .call sight.name ∧ looked.before.store.object = sight.object ∧
      looked.before.store.row = sight.row := fun sight mem => by
    obtain ⟨looked,there,saw⟩ := known.sights sight mem
    exact ⟨looked,mem_append_left _ there,saw⟩
  rcases step_moved orderly taken with ⟨row,sights⟩ | ⟨name,request,program,called,found,effect⟩
  · refine ⟨sights ▸ looked,fun proven => ?_,fun accepted => ?_⟩
    · rw [row] at proven
      exact (known.proved proven).later last (congrArg Upload.proof row)
    · rw [row] at accepted
      exact (known.received accepted).later last
  have moved := effect_moved effect
  refine ⟨fun sight mem => ?_,fun proven => ?_,fun accepted => ?_⟩
  · rcases effect with same | same | written
    · exact looked sight (same ▸ mem)
    · rw [same] at mem
      rcases mem_snoc.mp mem with old | rfl
      · exact looked sight old
      exact ⟨last,mem_append_right _ (mem_singleton_self _),called,rfl,rfl⟩
    · exact looked sight (written_sights written ▸ mem)
  · rcases moved.honest proven with ⟨before,same⟩ | ⟨token,sha256,identity,object,rfl,proving⟩
    · exact (known.proved before).later last same
    · obtain ⟨_,sight⟩ := proving.seen
      obtain ⟨looked,there,call,saw,_⟩ := known.sights _ sight
      exact ⟨history,last,[],name,token,sha256,identity,object,rfl,⟨called,program,found⟩,proving.active,⟨looked,there,call,saw⟩,proving.reported,proving.written⟩
  rcases moved.accepted accepted with before | ⟨sha256,token,rfl,quarantined,scanning,claim,row,sight⟩
  · exact (known.received before).later last
  · obtain ⟨looked,there,call,saw,_⟩ := known.sights _ sight
    exact ⟨history,last,[],name,sha256,token,rfl,⟨called,program,found⟩,quarantined,scanning,claim,looked,there,call,saw⟩

theorem known (path : Runs (Recorded (Step setting)) (System.initial (fresh object now)) history after) : Known history after.store := by
  induction path with
  | nil => exact ⟨fun _ empty => (not_mem_nil empty).elim,fun proven => (nomatch proven.2),nofun⟩
  | step prior final ih =>
    obtain ⟨rfl,rfl,taken⟩ := final
    exact ih.step (reached (fun _ _ => rfl) prior.events) taken

-- Verification and pickup exclude each other and the proof is honest.
structure Exclusive (history : List (Transition World (Event Nat Request))) (after : World) : Prop where
  oneVerification : ∀ a b, after.store.verifying a = true → after.store.verifying b = true → a = b
  onePickup : ∀ a b, after.store.pickingUp a = true → after.store.pickingUp b = true → a = b
  undisplaced : ∀ taken ∈ history, ∀ a b, (taken.before.store.verifying a = true → taken.after.store.verifying b = true → a = b) ∧
    (taken.before.store.pickingUp a = true → taken.after.store.pickingUp b = true → a = b)
  honest : after.store.row.proven → Proved history after.store.row
  clean : after.store.row.status = .quarantined → after.store.row.verificationState ≠ .verified → after.store.row.proof = (none,none,none,none,none,none)
  kept : ∀ taken ∈ history, taken.before.store.row.proven → taken.before.store.pickupActive = true → taken.after.store.row.status = .quarantined →
    taken.after.store.row.verificationState = .verified ∧ taken.after.store.row.proof = taken.before.store.row.proof
  accepted : after.store.row.status = .accepted → Received history
  final : ∀ taken ∈ history, taken.before.store.row.status = .accepted → taken.after.store.row.status = .accepted
  served : ∀ name row range ifRange object part, after.programs name = some (.serve row range ifRange,.done (.served object part)) →
    Looked history name (some object) ∧
      ∃ read ∈ history, read.event = .call name ∧ verifiedObjectAvailable read.before.store.row object = true

theorem verification_exclusive {object : Option R2Object} {now : Nat}
    (path : Runs (Recorded (Step setting)) (System.initial (fresh object now)) history after) : Exclusive history after := by
  have holds := known path
  have orderly := reached (fun _ _ => rfl) path.events
  have moved : ∀ taken ∈ history, ∃ name request, Moved name taken.before.store taken.after.store request := fun taken member => by
    obtain ⟨front,rest,split⟩ := append_of_mem member
    obtain ⟨earlier,step⟩ := path.reached split
    rcases step_moved (reached (fun _ _ => rfl) earlier.events) step with ⟨row,_⟩ | ⟨name,request,_,_,_,effect⟩
    · exact ⟨0,.accepted "" "",still_moved row⟩
    exact ⟨name,request,effect_moved effect⟩
  refine ⟨fun a b => oneVerification,fun a b => onePickup,fun taken member a b => ?_,holds.proved,orderly.valid,fun taken member => ?_,holds.received,
    fun taken member => ?_,fun name row range ifRange object part given => ?_⟩
  · obtain ⟨_,_,kept⟩ := moved taken member
    exact ⟨kept.verification a b,kept.pickup a b⟩
  · obtain ⟨_,_,kept⟩ := moved taken member
    exact kept.kept
  · obtain ⟨_,_,kept⟩ := moved taken member
    exact kept.final
  obtain ⟨⟨_,sight⟩,_,_,looked,available⟩ := orderly.result given
  obtain ⟨step,there,call,saw,_⟩ := holds.sights _ sight
  obtain ⟨again,here,called,_,was⟩ := holds.sights _ looked
  exact ⟨⟨step,there,call,saw⟩,again,here,called,was.symm ▸ available⟩
end

instance (name : Nat) (request : Request) (s : Store) : Decidable (setting.enter name request s) := .isTrue trivial
instance (name : Nat) (request : Request) (s : Store) : Decidable (setting.may name request s) := .isTrue trivial

def scanned : R2Object := ⟨4,"AB12","v1","text"⟩

def pickedUp : List (Event Nat Request) :=
  .start 0 (.verification (.scanning "claim")) :: replicate 5 (.call 0)++
    .start 1 (.verification (.verified "claim" ⟨"ab12",4,none⟩ "F00D")) :: replicate 5 (.call 1)++
    .start 2 (.pickup (.scanning "pickup")) :: replicate 5 (.call 2)++
    .start 3 (.verification (.invalidate 60 "changed" ⟨"ab12",4,some "v1"⟩)) :: replicate 2 (.call 3)

def pickedUpHistory : List (Transition World (Event Nat Request)) := trace (System.play setting id) (System.initial (fresh (some scanned) 100)) pickedUp
def pickedUpFinal : World := pickedUp.foldl (System.play setting id) (System.initial (fresh (some scanned) 100))

theorem verification_exclusive_example : Exclusive pickedUpHistory pickedUpFinal ∧ pickedUpFinal.store.row.verificationState = .verified ∧
      pickedUpFinal.store.row.proof = (some "f00d",some "ab12",some 4,some "v1",some 100,some "claim") ∧ pickedUpFinal.store.pickingUp "pickup" = true := by
  have replays : (System.initial (fresh (some scanned) 100) : World).replays setting pickedUp = true := by decide +kernel
  have exclusive : Exclusive pickedUpHistory pickedUpFinal := verification_exclusive (System.replayed replays)
  have state : pickedUpFinal.store.row.verificationState = .verified := by decide +kernel
  have proof : pickedUpFinal.store.row.proof = (some "f00d",some "ab12",some 4,some "v1",some 100,some "claim") := by decide +kernel
  have active : pickedUpFinal.store.pickingUp "pickup" = true := by decide +kernel
  exact ⟨exclusive,state,proof,active⟩
end LedgeTopOps.UploadVerification

import LedgeTopOps.UploadVerificationHistory

namespace LedgeTopOps.UploadVerification
open List AtomicPrograms StepRuns

abbrev Taken := Transition World (Event Nat Request)

-- The two claims that a row carries.
inductive Lane where
  | verification | pickup

def Lane.claim : Lane → Upload → Option String
  | .verification, row => row.verification.claimToken
  | .pickup, row => row.pickup.claimToken

def Lane.scanning : Lane → String → Request
  | .verification, token => .verification (.scanning token)
  | .pickup, token => .pickup (.scanning token)

def Lane.claims : Lane → Store → String → Option Store
  | .verification => claimVerification
  | .pickup => claimPickup

def Lane.token : Lane → Request → Option String
  | .verification, .verification (.scanning token) | .verification, .verification (.heartbeat token) => some token
  | .verification, .verification (.retry token _ _) | .verification, .verification (.verified token _ _) => some token
  | .pickup, .pickup (.scanning token) | .pickup, .pickup (.heartbeat token) => some token
  | .pickup, .pickup (.retry token _ _) | .pickup, .accepted _ token => some token
  | _, _ => none

-- The row gave the claim up: its retry or proof was recorded, its object was missing or another token took it.
def Ended (taken : Taken) (lane : Lane) (token : String) : Prop :=
  lane.claim taken.before.store.row = some token ∧ lane.claim taken.after.store.row ≠ some token

def Claimed (taken : Taken) (lane : Lane) (token : String) : Prop :=
  ∃ name, Answers taken name (lane.scanning token) ∧ lane.claims taken.before.store token = some taken.after.store

-- A pickup's scanning or retry is recorded.
def Returned (taken : Taken) : Prop :=
  taken.after.store.row ≠ taken.before.store.row ∧ ∃ name input, Answers taken name (.pickup input) ∧ ∀ token, input ≠ .heartbeat token

def Stepped (taken : Taken) : Prop :=
  taken.after.store.row = taken.before.store.row ∨
    ∃ name request, Answers taken name request ∧ Written name taken.before.store taken.after.store request

def Upload.heldBy (row : Upload) (token : String) : Prop :=
  row.status = .accepted ∨ row.status = .quarantined ∧ row.pickupState = .scanning ∧ row.pickup.claimToken = some token

section
variable {origin middle after : World} {history : List (Taken)}

theorem verification_written (written : Written name s t (.verification input)) :
    t.row.status = s.row.status ∧ t.row.pickupState = s.row.pickupState ∧ t.row.pickup = s.row.pickup := by
  cases input with
  | scanning => rcases written with done | done <;> exact (update_some done).2 ▸ ⟨rfl,rfl,rfl⟩
  | verified =>
    obtain ⟨_,_,_,_,done⟩ := written
    exact (update_some done).2 ▸ ⟨rfl,rfl,rfl⟩
  | _ => exact (update_some written).2 ▸ ⟨rfl,rfl,rfl⟩

theorem written_lane (written : Written name s t request) (lane : Lane) :
    (∃ token, request = lane.scanning token ∧ lane.claims s token = some t ∧ lane.claim t.row = some token) ∨
      (∀ token, lane.token request = some token → lane.claim s.row = some token) ∧ (lane.claim t.row = lane.claim s.row ∨ lane.claim t.row = none) := by
  cases request with
  | verification input =>
    cases lane with
    | pickup => exact .inr ⟨nofun,.inl (congrArg Lease.claimToken (verification_written written).2.2)⟩
    | verification =>
      cases input with
      | scanning token =>
        rcases written with done | done
        · exact .inl ⟨token,rfl,done,by rw [(update_some done).2]; rfl⟩
        obtain ⟨met,rfl⟩ := update_some done
        exact .inr ⟨fun _ is => is ▸ of_decide_eq_true (Bool.and_eq_true_iff.mp met).2,.inr rfl⟩
      | heartbeat =>
        obtain ⟨met,rfl⟩ := update_some written
        exact .inr ⟨fun _ is => is ▸ (verifying_iff.mp met).2.2.1,.inl rfl⟩
      | retry =>
        obtain ⟨met,rfl⟩ := update_some written
        exact .inr ⟨fun _ is => is ▸ (verifying_iff.mp met).2.2.1,.inr rfl⟩
      | verified =>
        obtain ⟨_,_,_,_,done⟩ := written
        obtain ⟨met,rfl⟩ := update_some done
        exact .inr ⟨fun _ is => is ▸ (verifying_iff.mp met).2.2.1,.inr rfl⟩
      | invalidate =>
        obtain ⟨_,rfl⟩ := update_some written
        exact .inr ⟨nofun,.inr rfl⟩
  | pickup input =>
    cases input with
    | scanning token =>
      rcases written with done | done
      · obtain ⟨_,is⟩ := update_some done
        cases lane with
        | verification => exact .inr ⟨nofun,.inl (by rw [is]; rfl)⟩
        | pickup => exact .inl ⟨token,rfl,done,by rw [is]; rfl⟩
      obtain ⟨met,rfl⟩ := update_some done
      cases lane with
      | verification => exact .inr ⟨nofun,.inl rfl⟩
      | pickup => exact .inr ⟨fun _ is => is ▸ of_decide_eq_true (Bool.and_eq_true_iff.mp met).2,.inr rfl⟩
    | heartbeat =>
      obtain ⟨met,rfl⟩ := update_some written
      cases lane with
      | verification => exact .inr ⟨nofun,.inl rfl⟩
      | pickup => exact .inr ⟨fun _ is => is ▸ (pickingUp_iff.mp met).2.2.1,.inl rfl⟩
    | retry =>
      obtain ⟨met,rfl⟩ := update_some written
      cases lane with
      | verification => exact .inr ⟨nofun,.inl rfl⟩
      | pickup => exact .inr ⟨fun _ is => is ▸ (pickingUp_iff.mp met).2.2.1,.inr rfl⟩
  | accepted =>
    obtain ⟨met,rfl⟩ := update_some written.2
    cases lane with
    | verification => exact .inr ⟨nofun,.inl rfl⟩
    | pickup => exact .inr ⟨fun _ is => is ▸ of_decide_eq_true (Bool.and_eq_true_iff.mp met).2,.inr rfl⟩
  | serve => exact written.elim

theorem written_held (written : Written name s t request) (held : s.row.heldBy token) :
    t.row.heldBy token ∨ ∃ input, request = .pickup input ∧ ∀ token, input ≠ .heartbeat token := by
  cases request with
  | verification =>
    obtain ⟨status,state,pickup⟩ := verification_written written
    unfold Upload.heldBy
    rw [status,state,pickup]
    exact .inl held
  | pickup input =>
    cases input with
    | scanning | retry => exact .inr ⟨_,rfl,nofun⟩
    | heartbeat =>
      obtain ⟨_,rfl⟩ := update_some written
      exact .inl held
  | accepted =>
    obtain ⟨_,rfl⟩ := update_some written.2
    exact .inl (.inl rfl)
  | serve => exact written.elim

theorem stepped (path : Runs (Recorded (Step setting)) (System.initial (fresh object now)) history after) (member : taken ∈ history) : Stepped taken := by
  obtain ⟨front,rest,split⟩ := append_of_mem member
  obtain ⟨earlier,step⟩ := path.reached split
  rcases step_moved (reached (fun _ _ => rfl) earlier.events) step with ⟨same,_⟩ | ⟨name,request,program,called,found,is | is | written⟩
  · exact .inl same
  · exact .inl (congrArg Store.row is)
  · exact .inl (by rw [is]; rfl)
  exact .inr ⟨name,request,⟨called,program,found⟩,written⟩

theorem Answers.unique (mine : Answers taken a p) (its : Answers taken b q) : p = q := by
  obtain ⟨called,_,found⟩ := mine
  obtain ⟨again,_,there⟩ := its
  cases called.symm.trans again
  cases found.symm.trans there
  rfl

-- Once the claim is gone only a scanning of its token brings it back.
theorem unclaimed (path : Runs (Recorded (Step setting)) origin history middle) (all : ∀ taken ∈ history, Stepped taken)
    (gone : lane.claim origin.store.row ≠ some token) : lane.claim middle.store.row ≠ some token ∨ ∃ again ∈ history, Claimed again lane token := by
  induction path with
  | nil => exact .inl gone
  | @step earlier _ last _ prior final ih =>
    obtain ⟨rfl,rfl,_⟩ := final
    have here : last ∈ earlier++[last] := mem_append_right _ (mem_singleton_self _)
    rcases ih fun taken mem => all taken (mem_append_left _ mem) with still | ⟨again,mem,claimed⟩
    · rcases all last here with same | ⟨name,request,answers,written⟩
      · exact .inl (same ▸ still)
      · rcases written_lane written lane with ⟨own,rfl,claimed,is⟩ | ⟨_,kept | none'⟩
        · by_cases mine : own = token
          · exact .inr ⟨last,here,name,mine ▸ answers,mine ▸ claimed⟩
          · exact .inl fun claim => mine (Option.some.inj (is.symm.trans claim))
        · exact .inl (kept ▸ still)
        · exact .inl (none' ▸ nofun)
    exact .inr ⟨again,mem_append_left _ mem,claimed⟩

theorem held (path : Runs (Recorded (Step setting)) origin history after) (all : ∀ taken ∈ history, Stepped taken)
    (quiet : ∀ taken ∈ history, ¬ Returned taken) (start : origin.store.row.heldBy token) : after.store.row.heldBy token := by
  induction path with
  | nil => exact start
  | @step earlier _ last _ prior final ih =>
    obtain ⟨rfl,rfl,_⟩ := final
    have here : last ∈ earlier++[last] := mem_append_right _ (mem_singleton_self _)
    have before := ih (fun taken mem => all taken (mem_append_left _ mem)) fun taken mem => quiet taken (mem_append_left _ mem)
    by_cases same : last.after.store.row = last.before.store.row
    · exact same ▸ before
    rcases all last here with is | ⟨name,request,answers,written⟩
    · exact (same is).elim
    rcases written_held written before with still | ⟨input,rfl,apart⟩
    · exact still
    exact (quiet last here ⟨same,name,input,answers,apart⟩).elim

theorem accepted_answers (held : s.row.heldBy token) (absent : s.object = none) :
    ∃ repeated, ((code name (.accepted sha256 token)).run s).2 = .accepted repeated := by
  rcases held with done | ⟨status,scanning,claim⟩
  · exact ⟨true,by simp [code,acceptedRoute,select,done,Program.run]⟩
  refine ⟨false,?_⟩
  simp [code,acceptedRoute,select,look,update,Program.read,Program.run,Store.seen,acceptUpload,Store.update,Store.quarantined,Lease.heldBy,status,absent,
    scanning,claim]

-- A late request of an ended attempt writes the row only once its scanning has claimed it again; a pickup of a gone
-- object is accepted until a scanning or retry is recorded.
structure Late (history : List (Taken)) (after : World) : Prop where
  harmless : ∀ front ended mid taken rest lane token name request, history = front++ended :: (mid++taken :: rest) → Ended ended lane token →
    Answers taken name request → lane.token request = some token → taken.after.store.row ≠ taken.before.store.row → ∃ again ∈ mid++[taken], Claimed again lane token
  acknowledged : ∀ front removed rest token name sha256, history = front++removed :: rest → removed.after.store.pickingUp token = true →
    (∀ taken ∈ rest, ¬ Returned taken) → after.store.object = none → ∃ repeated, ((code name (.accepted sha256 token)).run after.store).2 = .accepted repeated

theorem late_requests {object : Option R2Object} {now : Nat}
    (path : Runs (Recorded (Step setting)) (System.initial (fresh object now)) history after) : Late history after where
  harmless front ended mid taken rest lane token name request split gone answers carries changed := by
    have all : ∀ step ∈ history, Stepped step := fun _ => stepped path
    subst split
    have here : taken ∈ front++ended :: (mid++taken :: rest) := mem_append_right _ (.tail _ (mem_append_right _ (.head _)))
    obtain ⟨earlier,_⟩ := path.resumed.reached rfl
    rcases unclaimed earlier (fun step mem => all step (mem_append_right _ (.tail _ (mem_append_left _ mem)))) gone.2 with still | ⟨again,mem,claimed⟩
    · rcases all taken here with same | ⟨other,asked,its,written⟩
      · exact (changed same).elim
      · cases answers.unique its
        rcases written_lane written lane with ⟨own,rfl,claimed,_⟩ | ⟨holds,_⟩
        · have mine : own = token := by cases lane <;> exact Option.some.inj carries
          exact ⟨taken,mem_append_right _ (mem_singleton_self _),other,mine ▸ its,mine ▸ claimed⟩
        exact (still (holds _ carries)).elim
    exact ⟨again,mem_append_left _ mem,claimed⟩
  acknowledged front removed rest token name sha256 split active quiet absent := by
    have all : ∀ step ∈ history, Stepped step := fun _ => stepped path
    subst split
    obtain ⟨status,scanning,claim,_⟩ := pickingUp_iff.mp active
    exact accepted_answers (held path.resumed (fun step mem => all step (mem_append_right _ (.tail _ mem))) quiet (.inr ⟨status,scanning,claim⟩)) absent
end

-- The object is removed under the lapsed lease of "p": "q" takes the row, finds none and gives it back. "p" is
-- refused, but its scanning sent again claims the row.
def elapse (s : Store) : Store := { s with object := none,now := s.now + 450 }

def overtaken : List (Event Nat Request) :=
  .start 0 (.pickup (.scanning "p")) :: replicate 5 (.call 0)++[.outside,.outside,.start 1 (.pickup (.scanning "q"))]++replicate 5 (.call 1)++
    [.outside,.start 2 (.pickup (.scanning "p")),.call 2,.call 2]

def overtakenHistory : List (Taken) := trace (System.play setting elapse) (System.initial (fresh (some scanned) 100)) overtaken
def overtakenFinal : World := overtaken.foldl (System.play setting elapse) (System.initial (fresh (some scanned) 100))

theorem elapse_outside (s : Store) : setting.outside s (elapse s) := ⟨none,s.now + 450,Nat.le_add_right _ _,rfl⟩

theorem overtaken_runs : Runs (Recorded (Step setting)) (System.initial (fresh (some scanned) 100)) overtakenHistory overtakenFinal :=
  System.played ⟨⟨rfl,trivial⟩,trivial,trivial,trivial,trivial,trivial,elapse_outside _,elapse_outside _,⟨rfl,trivial⟩,trivial,trivial,trivial,trivial,trivial,
    elapse_outside _,⟨rfl,trivial⟩,trivial,trivial,trivial⟩

theorem late_requests_differ : Runs (Recorded (Step setting)) (System.initial (fresh (some scanned) 100)) overtakenHistory overtakenFinal ∧
      ∃ removed ended again, overtakenHistory[6]? = some removed ∧ overtakenHistory[10]? = some ended ∧ overtakenHistory[17]? = some again ∧
        removed.after.store.pickingUp "p" = true ∧ removed.after.store.object = none ∧ Ended ended .pickup "p" ∧
        ((code 3 (.accepted "f00d" "p")).run ended.after.store).2 = .refused 409 "Pickup lease is no longer active" ∧
        Answers again 2 (.pickup (.scanning "p")) ∧ again.after.store.row ≠ again.before.store.row := by
  refine ⟨overtaken_runs,_,_,_,rfl,rfl,rfl,?_,rfl,⟨?_,?_⟩,?_,⟨rfl,_,rfl⟩,?_⟩
  · decide +kernel
  · decide +kernel
  · decide +kernel
  · rfl
  exact fun same => absurd (congrArg (fun row : Upload => row.pickup.claimToken) same) (by decide +kernel)

theorem late_requests_example : Late overtakenHistory overtakenFinal := late_requests overtaken_runs
end LedgeTopOps.UploadVerification

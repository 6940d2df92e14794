import LedgeTopOps.UploadVerification

namespace LedgeTopOps.UploadVerification
open AtomicPrograms StepRuns

def Written (name : Nat) (s t : Store) : Request → Prop
  | .verification (.scanning token) => claimVerification s token = some t ∨ releaseVerification s token = some t
  | .verification (.heartbeat token) => heartbeatVerification s token = some t
  | .verification (.retry token seconds code) => retryVerification s token seconds code = some t
  | .verification (.invalidate seconds code identity) => invalidateVerification s seconds code identity = some t
  | .verification (.verified token identity sha256) => ∃ object row, ⟨name,some object,row⟩ ∈ s.sights ∧ identityMatches object identity = true ∧
    proveVerification s token sha256 object = some t
  | .pickup (.scanning token) => claimPickup s token = some t ∨ releasePickup s token = some t
  | .pickup (.heartbeat token) => heartbeatPickup s token = some t
  | .pickup (.retry token seconds code) => retryPickup s token seconds code = some t
  | .accepted sha256 token => (∃ row, ⟨name,none,row⟩ ∈ s.sights) ∧ acceptUpload s token sha256 = some t
  | .serve _ _ _ => False

def Effect (name : Nat) (s t : Store) (request : Request) : Prop := t = s ∨ t = s.seen name ∨ Written name s t request

def Holds (name : Nat) (s : Store) : Request → Answer → Prop
  | .serve _ _ _, .served object _ => (∃ row, ⟨name,some object,row⟩ ∈ s.sights) ∧
    ∃ other row, ⟨name,other,row⟩ ∈ s.sights ∧ verifiedObjectAvailable row object = true
  | _, _ => True

def terms (name : Nat) (request : Request) : Terms Store Answer where
  inside _ := True
  rely s t := s.sights <+: t.sights
  guarantee s t _ := Effect name s t request
  post answer s := Holds name s request answer

def setting : Setting Store Nat Request Answer where
  code := code
  enter _ _ _ := True
  may _ _ _ := True
  outside s t := ∃ object now, s.now ≤ now ∧ t = { s with object,now }

abbrev World := System Store Nat Request Answer

section
variable {s t : Store}

theorem update_some (done : s.update taken row = some t) : taken ∧ t = { s with row } := by
  obtain ⟨met,is⟩ := Option.ite_none_right_eq_some.mp done
  cases is
  exact ⟨met,rfl⟩

theorem written_sights (written : Written name s t request) : t.sights = s.sights := by
  have same : ∀ {taken : Bool} {row : Upload}, s.update taken row = some t → t.sights = s.sights := fun done => (update_some done).2 ▸ rfl
  cases request with
  | verification input =>
    cases input with
    | scanning => exact written.elim same same
    | verified =>
      obtain ⟨_,_,_,_,done⟩ := written
      exact same done
    | _ => exact same written
  | pickup input =>
    cases input with
    | scanning => exact written.elim same same
    | heartbeat | retry => exact same written
  | accepted => exact same written.2
  | serve => exact written.elim

theorem refused_holds (name : Nat) (s : Store) (request : Request) (status : Nat) (message : String) : Holds name s request (.refused status message) := by
  cases request <;> trivial

theorem obeys_refused (status : Nat) (message : String) (s : Store) : Obeys (terms name request) (.done (.refused status message)) s :=
  refused_holds name s request status message

theorem obeys_select {next : Store → Code} (going : ∀ t, s.sights <+: t.sights → Obeys (terms name request) (next t) t) :
    Obeys (terms name request) (select next) s :=
  obeys_read (fun _ _ => .inl rfl) fun t later _ => ⟨going t later,obeys_refused _ _ t⟩

theorem obeys_look {next : Store → Code} (going : ∀ t, s.sights <+: t.sights → Obeys (terms name request) (next t) (t.seen name)) :
    Obeys (terms name request) (look name next) s :=
  fun t later _ => ⟨⟨.inr (.inl rfl),going t later⟩,obeys_refused _ _ t⟩

theorem obeys_update {next : Bool → Code} (written : ∀ t u, s.sights <+: t.sights → statement t = some u → Written name t u request)
    (going : ∀ changed u, s.sights <+: u.sights → Obeys (terms name request) (next changed) u) : Obeys (terms name request) (update statement next) s := by
  intro t later _
  refine ⟨?_,obeys_refused _ _ t⟩
  cases done : statement t with
  | none =>
    simp only [done,Option.getD_none,Option.isSome_none]
    exact ⟨.inl rfl,going false t later⟩
  | some u =>
    simp only [done,Option.getD_some,Option.isSome_some]
    exact ⟨.inr (.inr (written t u later done)),going true u ((written_sights (written t u later done)).symm ▸ later)⟩

theorem seen_mem (name : Nat) (t : Store) : ⟨name,t.object,t.row⟩ ∈ (t.seen name).sights := List.mem_append_right _ (List.mem_singleton_self _)
end

theorem scanning_obeys (token : String) (s : Store) : Obeys (terms name (.verification (.scanning token))) (applyScanning name token) s := by
  refine obeys_update (fun _ _ _ done => .inl done) fun changed u _ => obeys_select fun v _ => ?_
  split
  · split <;> trivial
  refine obeys_look fun w _ => ?_
  split
  · exact obeys_update (fun _ _ _ done => .inr done) fun _ _ _ => trivial
  refine obeys_select fun x _ => ?_
  split <;> trivial

theorem heartbeat_obeys (token : String) (s : Store) : Obeys (terms name (.verification (.heartbeat token))) (applyHeartbeat token) s := by
  refine obeys_update (fun _ _ _ done => done) fun changed u _ => obeys_select fun v _ => ?_
  split <;> trivial

theorem proveUpload_obeys (token sha256 : String) (identity : ProofIdentity) (s : Store) :
    Obeys (terms name (.verification (.verified token identity sha256))) (proveUpload name token sha256 identity) s := by
  refine obeys_look fun t _ => ?_
  split
  · trivial
  rename_i object found
  split
  · trivial
  rename_i reported
  rw [Bool.not_eq_true',Bool.not_eq_false] at reported
  have sight := seen_mem name t
  rw [found] at sight
  refine obeys_update (fun u v later done => ⟨object,t.row,later.subset sight,reported,done⟩) fun changed u _ => ?_
  split
  · trivial
  exact obeys_select fun _ _ => trivial

theorem verified_obeys (token sha256 : String) (identity : ProofIdentity) (s : Store) :
    Obeys (terms name (.verification (.verified token identity sha256))) (applyVerified name token sha256 identity) s := by
  refine obeys_select fun t _ => ?_
  split
  · refine obeys_look fun u _ => ?_
    split
    · trivial
    exact proveUpload_obeys _ _ _ _
  exact proveUpload_obeys _ _ _ _

theorem verification_obeys (input : VerificationStatus) (s : Store) : Obeys (terms name (.verification input)) (applyVerificationStatus name input) s := by
  refine obeys_select fun t _ => ?_
  split
  · trivial
  split
  · exact scanning_obeys _ t
  · exact heartbeat_obeys _ t
  · refine obeys_update (fun _ _ _ done => done) fun changed u _ => ?_
    split <;> trivial
  · refine obeys_update (fun _ _ _ done => done) fun changed u _ => ?_
    split <;> trivial
  exact verified_obeys _ _ _ t

theorem pickup_obeys (input : PickupStatus) (s : Store) : Obeys (terms name (.pickup input)) (pickupStatus name input) s := by
  refine obeys_select fun t _ => ?_
  split
  · trivial
  split
  · refine obeys_update (fun _ _ _ done => .inl done) fun changed u _ => obeys_select fun v _ => ?_
    split
    · split <;> trivial
    refine obeys_look fun w _ => ?_
    split
    · exact obeys_update (fun _ _ _ done => .inr done) fun _ _ _ => trivial
    refine obeys_select fun x _ => ?_
    split <;> trivial
  · refine obeys_update (fun _ _ _ done => done) fun changed u _ => ?_
    split
    · trivial
    refine obeys_select fun v _ => ?_
    split <;> trivial
  refine obeys_update (fun _ _ _ done => done) fun changed u _ => ?_
  split <;> trivial

theorem accepted_obeys (sha256 token : String) (s : Store) : Obeys (terms name (.accepted sha256 token)) (acceptedRoute name sha256 token) s := by
  refine obeys_select fun t _ => ?_
  split
  · trivial
  refine obeys_look fun u _ => ?_
  split
  · trivial
  rename_i empty
  rw [Option.not_isSome_iff_eq_none] at empty
  have sight := seen_mem name u
  rw [empty] at sight
  refine obeys_update (fun v w later done => ⟨⟨u.row,later.subset sight⟩,done⟩) fun changed v _ => ?_
  split
  · trivial
  exact obeys_select fun _ _ => obeys_select fun _ _ => trivial

theorem available_same (etag : toLowerCase object.etag = toLowerCase head.etag) (version : object.version = head.version)
    (size : object.size = head.size) (available : verifiedObjectAvailable row head) : verifiedObjectAvailable row object := by
  unfold verifiedObjectAvailable at available ⊢
  rw [etag,version,size]
  exact available

theorem serve_obeys (row : Upload) (range ifRange : Option String) (s : Store) :
    Obeys (terms name (.serve row range ifRange)) (serveVerifiedIncomingObject name row range ifRange) s := by
  refine obeys_look fun t _ => ?_
  split
  · trivial
  rename_i head found
  split
  · trivial
  split
  · trivial
  refine obeys_look fun current before => ?_
  split
  · trivial
  rename_i available
  rw [Bool.not_eq_true',Bool.not_eq_false] at available
  refine obeys_look fun u later => ?_
  split
  · trivial
  rename_i object stored
  split
  · trivial
  rename_i same
  simp only [Bool.or_eq_true,decide_eq_true_eq,not_or,not_not] at same
  have sight := seen_mem name u
  rw [stored] at sight
  refine ⟨⟨u.row,sight⟩,current.object,current.row,?_,available_same same.1.1.2 same.1.2 same.2 available⟩
  exact List.mem_append_left _ (later.subset (seen_mem name current))

theorem code_obeys (name : Nat) (request : Request) (s : Store) : Obeys (terms name request) (code name request) s := by
  cases request with
  | verification input => exact verification_obeys input s
  | pickup input => exact pickup_obeys input s
  | accepted sha256 token => exact accepted_obeys sha256 token s
  | serve row range ifRange => exact serve_obeys row range ifRange s
end LedgeTopOps.UploadVerification

import LedgeTopOps.IncomingReservations

namespace LedgeTopOps.IncomingUploads
open List KeyedRows StepRuns Option
open Bool (eq_false_iff)

def Pc.upload : Pc → Option Upload
  | .cancelAbort row | .cancelMark row | .cancelRelease row | .claim row | .compose row | .composeFailed row | .unclaim row | .refuse row
  | .reject row | .rejectRelease row | .probe row | .transition row | .drop row | .dropMark row | .dropRelease row | .acceptHead row
  | .acceptMark row | .acceptRelease row | .expireAbort row | .expireDelete row | .expireMark row | .expireRelease row | .expired row
  | .expireThrown row => some row
  | _ => none

def Pc.holder : Pc → Bool
  | .compose _ | .composeFailed _ | .unclaim _ | .refuse _ | .reject _ | .probe _ | .transition _ | .drop _ | .dropMark _ => true
  | _ => false

def Pc.owing : Pc → Bool
  | .refuse _ | .probe _ | .transition _ | .drop _ => true
  | _ => false

def Pc.vouched : Pc → Bool
  | .probe _ | .transition _ => true
  | _ => false

-- The lifecycle's step for a row that was not uploading: it deletes the object; where it
-- has; and where the row has been marked.
def Pc.doomed (pc : Pc) : Bool := match pc.step with
  | some row => row.status ≠ .uploading
  | none => false

def Pc.swept : Pc → Bool
  | .expireMark row => row.status ≠ .uploading
  | _ => false

def Pc.closed : Pc → Bool
  | .expireRelease _ | .expired _ => true
  | _ => false

def Pc.light : Pc → Bool
  | .cancelRead _ | .cancelAbort _ | .cancelMark _ | .cancelRelease _ | .completeRead _ | .claim _ | .rejectRelease _ | .dropRelease _
  | .acceptRead _ | .acceptHead _ | .acceptMark _ | .acceptRelease _ | .lifeDay _ | .lifeRetention _ | .lifeOver | .stopped _ => true
  | _ => false

def Status.terminal (status : Status) : Bool := status = .accepted || status = .expired

structure Fits (row : Upload) (object : Option Nat) (pc : Pc) : Prop where
  stranger : pc.name = none
  mine : ∀ read, pc.upload = some read → read.id = row.id ∧ read.size = row.size
  aborting : ∀ read, pc = .expireAbort read → read.status = .uploading
  deleting : ∀ read, pc = .expireDelete read → read.status ≠ .uploading
  held : pc.holder = true → (row.status = .uploading ∧ row.claimed = true) ∨ row.status = .expired
  bare : pc.holder = true → pc.owing = false → object = none
  full : pc.vouched = true → object = some row.size
  doomed : pc.doomed = true → row.status ≠ .uploading
  swept : pc.swept = true → object = none
  closed : pc.closed = true → row.status.terminal = true

inductive Handled (row row' : Upload) (object object' : Option Nat) (pc after : Pc) : Prop where
  | calm (status : row'.status = row.status) (claimed : row'.claimed = row.claimed) (same : object' = object) (fits : Fits row object after)
      (holder : after.holder = true → pc.holder = true) (owing : pc.owing = true → after.owing = true)
      (doomed : after.doomed = true → pc.doomed = true ∨ row.status = .quarantined ∨ row.status = .rejected)
      (stays : pc.doomed = true → after.doomed = true ∨ row.status.terminal = true)
  | claimed (before : row.status = .uploading ∧ row.claimed = false) (later : row'.status = .uploading ∧ row'.claimed = true) (same : object' = object)
      (read : Upload) (mine : read.id = row.id ∧ read.size = row.size) (goes : after = .compose read) (calm : pc.doomed = false)
  | composed (status : row'.status = row.status) (claimed : row'.claimed = row.claimed) (holder : pc.holder = true) (owing : after.owing = true)
      (fits : Fits row' object' after)
  | unclaimed (status : row'.status = row.status) (same : object' = object) (holder : pc.holder = true) (bare : pc.owing = false) (goes : after = halted)
  | cleared (status : row'.status = row.status) (claimed : row'.claimed = row.claimed) (none : object' = none) (holder : pc.holder = true)
      (keeps : after.holder = true) (fits : Fits row' object' after)
  | removed (status : row'.status = row.status) (claimed : row'.claimed = row.claimed) (none : object' = none) (doomed : pc.doomed = true)
      (stays : after.doomed = true) (fits : Fits row' object' after)
  | ended (live : row.status.terminal = false) (status : row'.status = .expired) (same : object' = object) (owing : pc.owing = false)
      (gone : row.status = .quarantined → object = none) (settled : after.holder = false) (stays : after.doomed = true → pc.doomed = true)
      (fits : Fits row' object' after)
  | rejected (before : row.status = .uploading) (status : row'.status = .rejected) (same : object' = object) (holder : pc.holder = true)
      (bare : pc.owing = false) (settled : after.holder = false) (calm : after.doomed = false) (fits : Fits row' object' after)
  | quarantined (before : row.status = .uploading) (status : row'.status = .quarantined) (same : object' = object) (holder : pc.holder = true)
      (full : object = some row.size) (goes : after = halted)
  | accepted (before : row.status = .quarantined) (status : row'.status = .accepted) (same : object' = object) (idle : pc.doomed = false)
      (settled : after.holder = false) (calm : after.doomed = false) (fits : Fits row' object' after)

-- The completions and the lifecycle steps that would lose an object.
def Pc.orderly (s : Store) : Pc → Reply → Bool
  | .expireMark row, .ok => !(row.status = .uploading && s.matching row.id (·.status = .quarantined) && (s.objects row.id).isSome)
  | pc, .failed => !pc.owing
  | _, _ => true

def orderly (w : World) : Action → Bool
  | .reply index reply => match w.flows[index]? with
    | some pc => pc.orderly w.store reply
    | none => true
  | .crash index => match w.flows[index]? with
    | some pc => !pc.owing
    | none => true
  | _ => true

section
variable {s t : Store} {pc after goes : Pc} {row row' read : Upload}

theorem row_one (one : s.rows = [row]) {id : Nat} (found : s.row id = some read) : read = row ∧ row.id = id := by
  obtain ⟨mem,here⟩ := row_some found
  rw [one] at mem
  cases mem_singleton.mp mem
  exact ⟨rfl,here⟩

section
variable (one : s.rows = [row]) (mine : read.id = row.id) (condition : Upload → Bool)
include one mine condition

theorem matching_one : s.matching read.id condition = condition row := by
  simp [Store.matching,one,mine]

theorem update_one (change : Upload → Upload) : (s.update read.id condition change).rows = [if condition row then change row else row] := by
  simp [Store.update,Store.amend,amend,one,mine]
end

theorem abort_rows (multipart : Option Nat) : (s.abort multipart).rows = s.rows ∧ (s.abort multipart).objects = s.objects ∧
    (s.abort multipart).pickedUp = s.pickedUp := by
  unfold Store.abort
  split
  · split <;> exact ⟨rfl,rfl,rfl⟩
  exact ⟨rfl,rfl,rfl⟩

theorem release_one (one : s.rows = [row]) (id : Nat) : ∃ row', (s.releaseReservedQuota id).rows = [row'] ∧ row'.id = row.id ∧
    row'.size = row.size ∧ row'.status = row.status ∧ row'.claimed = row.claimed ∧ (s.releaseReservedQuota id).objects = s.objects ∧
    (s.releaseReservedQuota id).pickedUp = s.pickedUp := by
  unfold Store.releaseReservedQuota
  split
  · rename_i found was
    split
    · exact ⟨row,one,rfl,rfl,rfl,rfl,rfl,rfl⟩
    obtain ⟨same,here⟩ := row_one one was
    subst same
    refine ⟨{ found with released := true },?_,rfl,rfl,rfl,rfl,rfl,rfl⟩
    simp [Store.amend,Store.giveBack,amend,one,here]
  exact ⟨row,one,rfl,rfl,rfl,rfl,rfl,rfl⟩

theorem none_read {P : Upload → Prop} : ∀ read, (none : Option Upload) = some read → P read := fun _ same => by cases same

theorem light_plain (light : pc.light) : pc.holder = false ∧ pc.owing = false ∧ pc.vouched = false ∧ pc.doomed = false ∧ pc.swept = false ∧
    pc.closed = false ∧ pc.name = none ∧ (∀ read, pc ≠ .expireAbort read) ∧ ∀ read, pc ≠ .expireDelete read := by
  cases pc with
  | cancelRead | cancelAbort | cancelMark | cancelRelease | completeRead | claim | rejectRelease | dropRelease | acceptRead | acceptHead | acceptMark
  | acceptRelease | lifeDay | lifeRetention | lifeOver | stopped =>
    refine ⟨rfl,rfl,rfl,rfl,rfl,rfl,rfl,?_,?_⟩ <;>
    · intro _ same
      cases same
  | _ => cases light

theorem off {P : Prop} (no : flag = false) (yes : flag = true) : P := absurd yes (eq_false_iff.mp no)

theorem light_fits (light : pc.light) (mine : ∀ read, pc.upload = some read → read.id = row.id ∧ read.size = row.size) : Fits row object pc := by
  obtain ⟨holder,_,vouched,doomed,swept,closed,name,abort,delete⟩ := light_plain light
  exact ⟨name,mine,fun read same => absurd same (abort read),fun read same => absurd same (delete read),off holder,off holder,off vouched,
    off doomed,off swept,off closed⟩

def Handles (s t : Store) (row : Upload) (pc after : Pc) : Prop := ∃ row', t.rows = [row'] ∧ row'.id = row.id ∧ row'.size = row.size ∧
  t.pickedUp = s.pickedUp ∧ Handled row row' (s.objects row.id) (t.objects row.id) pc after

structure Bystander (s t : Store) : Prop where
  rows : t.rows = s.rows
  objects : t.objects = s.objects
  pickedUp : t.pickedUp = s.pickedUp

theorem Bystander.refl (s : Store) : Bystander s s := ⟨rfl,rfl,rfl⟩

theorem Bystander.handles (still : Bystander s t) (one : s.rows = [row]) (fits : Fits row (s.objects row.id) after)
    (holder : after.holder → pc.holder) (owing : pc.owing → after.owing)
    (doomed : after.doomed → pc.doomed ∨ row.status = .quarantined ∨ row.status = .rejected)
    (stays : pc.doomed → after.doomed ∨ row.status.terminal) : Handles s t row pc after :=
  ⟨row,still.rows.trans one,rfl,rfl,still.pickedUp,.calm rfl rfl (by rw [still.objects]) fits holder owing doomed stays⟩

theorem Bystander.light (still : Bystander s t) (one : s.rows = [row]) (owing : pc.owing = false) (doomed : pc.doomed = false) (light : after.light)
    (mine : ∀ read, after.upload = some read → read.id = row.id ∧ read.size = row.size) : Handles s t row pc after := by
  obtain ⟨holder,_,_,calm,_⟩ := light_plain light
  exact still.handles one (light_fits light mine) (off holder) (off owing) (off calm) (off doomed)

theorem release_handles (one : s.rows = [row]) {id : Nat} (fits : Fits row (s.objects row.id) after)
    (holder : after.holder → pc.holder) (owing : pc.owing → after.owing) (doomed : after.doomed → pc.doomed) (stays : pc.doomed → after.doomed) :
    Handles s (s.releaseReservedQuota id) row pc after := by
  obtain ⟨row',rows,sameId,sameSize,status,claimed,objects,pickedUp⟩ := release_one one id
  exact ⟨row',rows,sameId,sameSize,pickedUp,
    .calm status claimed (by rw [objects]) fits holder owing (fun held => .inl (doomed held)) fun held => .inl (stays held)⟩

theorem halted_fits : Fits row object halted := light_fits rfl none_read

theorem statement_handles (ran : statement s effect goes fails reply = some (t,after)) (good : reply = .ok → Handles s effect row pc goes)
    (bad : reply = .failed → Handles s s row pc fails) : Handles s t row pc after := by
  cases reply with
  | ok => cases ran; exact good rfl
  | failed => cases ran; exact bad rfl
  | composed | flag => cases ran

theorem plain_handles (one : s.rows = [row]) (ran : statement s effect goes halted reply = some (t,after)) (owing : pc.owing = false)
    (doomed : pc.doomed = false) (good : Handles s effect row pc goes) : Handles s t row pc after :=
  statement_handles ran (fun _ => good) fun _ => (Bystander.refl s).light one owing doomed rfl none_read

theorem asked_handles (ran : asked s going fails reply = some (t,after)) (good : ∀ yes, Handles s s row pc (going yes))
    (bad : reply = .failed → Handles s s row pc fails) : Handles s t row pc after := by
  cases reply with
  | flag yes => cases ran; exact good yes
  | failed => cases ran; exact bad rfl
  | composed | ok => cases ran

theorem expireUpload_fits (row : Upload) (object : Option Nat) (held : row.status ≠ .uploading → row.status = .quarantined ∨ row.status = .rejected) :
    Fits row object (expireUpload row) ∧ (expireUpload row).holder = false ∧
      ((expireUpload row).doomed → row.status = .quarantined ∨ row.status = .rejected) := by
  unfold expireUpload
  split
  · rename_i uploading
    refine ⟨⟨rfl,?_,?_,nofun,nofun,nofun,nofun,?_,nofun,nofun⟩,rfl,?_⟩
    · intro _ same
      cases same
      exact ⟨rfl,rfl⟩
    · intro _ same
      cases same
      exact uploading
    · intro doomed
      simp [Pc.doomed,Pc.step,uploading] at doomed
    intro doomed
    simp [Pc.doomed,Pc.step,uploading] at doomed
  rename_i other
  refine ⟨⟨rfl,?_,nofun,?_,nofun,nofun,nofun,fun _ => other,nofun,nofun⟩,rfl,fun _ => held other⟩
  · intro _ same
    cases same
    exact ⟨rfl,rfl⟩
  intro _ same
  cases same
  exact other

theorem live_status (live : row.status.terminal = false) (other : row.status ≠ .uploading) : row.status = .quarantined ∨ row.status = .rejected := by
  cases status : row.status with
  | uploading => exact absurd status other
  | quarantined => exact .inl rfl
  | rejected => exact .inr rfl
  | accepted | expired => rw [status] at live; cases live

theorem handled_mine (fits : Fits row object pc) (reads : pc.upload = some read) (goes : after.upload = some read) :
    ∀ other, after.upload = some other → other.id = row.id ∧ other.size = row.size := by
  intro _ same
  cases goes.symm.trans same
  exact fits.mine read reads

theorem compose_called (ran : Pc.call s (.compose read) reply = some (t,after)) :
    (∃ size multipart, t = (s.setMultipart multipart .completed).setObject read.id (some size) ∧
      after = if size = read.size then .probe read else .refuse read) ∨ (t = s ∧ after = .composeFailed read) := by
  simp only [Pc.call] at ran
  split at ran
  · rename_i size multipart _
    obtain ⟨_,same⟩ := ite_none_right_eq_some.mp ran
    cases same
    exact .inl ⟨size,multipart,rfl,rfl⟩
  · cases ran
    exact .inr ⟨rfl,rfl⟩
  cases ran

theorem acceptMark_called (ran : Pc.call s (.acceptMark read) (.flag leased) = some (t,after)) :
    (s.matching read.id (·.status = .quarantined) ∧ after = .acceptRelease read ∧
      t = s.update read.id (·.status = .quarantined) fun row => { row with status := .accepted }) ∨ (t = s ∧ after = halted) := by
  simp only [Pc.call] at ran
  split at ran
  · rename_i marks
    cases ran
    exact .inl ⟨(Bool.and_eq_true_iff.mp marks).2,rfl,rfl⟩
  cases ran
  exact .inr ⟨rfl,rfl⟩

theorem call_handles (one : s.rows = [row]) (fits : Fits row (s.objects row.id) pc) (spare : pc.orderly s reply)
    (ran : pc.call s reply = some (t,after)) : Handles s t row pc after := by
  have still := Bystander.refl s
  -- What every place with a row knows of it.
  have mine := fits.mine
  cases pc with
  | expired | expireThrown | lifeOver | stopped => cases ran
  | cancelRead id =>
    refine plain_handles one ran rfl rfl ?_
    split
    · rename_i read found
      obtain ⟨same,_⟩ := row_one one found
      subst same
      split
      · split
        · exact still.light one rfl rfl rfl fun other same => by cases same; exact ⟨rfl,rfl⟩
        · exact still.light one rfl rfl rfl fun other same => by cases same; exact ⟨rfl,rfl⟩
      exact still.light one rfl rfl rfl none_read
    exact still.light one rfl rfl rfl none_read
  | cancelAbort read =>
    obtain ⟨rows,objects,pickedUp⟩ := abort_rows (s := s) read.multipart
    refine plain_handles one ran rfl rfl ?_
    exact Bystander.light ⟨rows,objects,pickedUp⟩ one rfl rfl rfl (handled_mine fits rfl rfl)
  | cancelMark read | dropMark read =>
    obtain ⟨here,_⟩ := mine read rfl
    refine plain_handles one ran rfl rfl ?_
    have rows : (s.expire read.id [.uploading]).rows = _ := update_one one here _ _
    rw [matching_one one here]
    by_cases uploading : row.status = .uploading
    · rw [if_pos (decide_eq_true uploading)]
      rw [if_pos (by simp [uploading])] at rows
      refine ⟨_,rows,rfl,rfl,rfl,.ended (by rw [uploading]; rfl) rfl rfl rfl (fun other => ?_) rfl nofun ?_⟩
      · cases uploading.symm.trans other
      exact light_fits rfl fun other same => by cases same; exact mine read rfl
    rw [if_neg (by simpa using uploading)]
    rw [if_neg (by simpa using uploading)] at rows
    exact Bystander.light ⟨rows.trans one.symm,rfl,rfl⟩ one rfl rfl rfl none_read
  | cancelRelease | rejectRelease | dropRelease | acceptRelease =>
    exact plain_handles one ran rfl rfl (release_handles one halted_fits nofun nofun nofun nofun)
  | completeRead | acceptRead =>
    refine plain_handles one ran rfl rfl ?_
    split
    · rename_i read found
      obtain ⟨same,_⟩ := row_one one found
      subst same
      split
      · exact still.light one rfl rfl rfl fun other same => by cases same; exact ⟨rfl,rfl⟩
      exact still.light one rfl rfl rfl none_read
    exact still.light one rfl rfl rfl none_read
  | claim read =>
    obtain ⟨here,size⟩ := mine read rfl
    refine plain_handles one ran rfl rfl ?_
    have rows := update_one one here (fun row => row.status = .uploading && !row.claimed) fun row => { row with claimed := true }
    rw [matching_one one here]
    by_cases free : (row.status = .uploading && !row.claimed)
    · rw [if_pos free]
      rw [if_pos free] at rows
      simp only [Bool.and_eq_true,decide_eq_true_eq,Bool.not_eq_true'] at free
      exact ⟨_,rows,rfl,rfl,rfl,.claimed free ⟨free.1,rfl⟩ rfl read ⟨here,size⟩ rfl rfl⟩
    rw [if_neg free]
    rw [if_neg free] at rows
    exact Bystander.light ⟨rows.trans one.symm,rfl,rfl⟩ one rfl rfl rfl none_read
  | compose read =>
    obtain ⟨here,size⟩ := mine read rfl
    obtain ⟨given,multipart,rfl,rfl⟩ | ⟨rfl,rfl⟩ := compose_called ran
    · refine ⟨row,one,rfl,rfl,rfl,.composed rfl rfl rfl (by split <;> rfl) ?_⟩
      split
      · rename_i exact'
        refine ⟨rfl,handled_mine fits rfl rfl,nofun,nofun,fun _ => fits.held rfl,nofun,fun _ => ?_,nofun,nofun,nofun⟩
        simp [Store.setObject,here,exact',size]
      exact ⟨rfl,handled_mine fits rfl rfl,nofun,nofun,fun _ => fits.held rfl,nofun,nofun,nofun,nofun,nofun⟩
    exact still.handles one ⟨rfl,handled_mine fits rfl rfl,nofun,nofun,fun _ => fits.held rfl,fun _ _ => fits.bare rfl rfl,nofun,nofun,nofun,nofun⟩
      (fun _ => rfl) nofun nofun nofun
  | composeFailed read =>
    obtain ⟨here,_⟩ := mine read rfl
    refine plain_handles one ran rfl rfl ?_
    rw [here,fits.bare rfl rfl,if_neg nofun]
    exact still.handles one ⟨rfl,handled_mine fits rfl rfl,nofun,nofun,fun _ => fits.held rfl,fun _ _ => fits.bare rfl rfl,nofun,nofun,nofun,nofun⟩
      (fun _ => rfl) nofun nofun nofun
  | unclaim read =>
    obtain ⟨here,_⟩ := mine read rfl
    refine plain_handles one ran rfl rfl ?_
    have rows := update_one one here (·.status = .uploading) fun row => { row with claimed := false }
    split at rows
    · exact ⟨_,rows,rfl,rfl,rfl,.unclaimed rfl rfl rfl rfl rfl⟩
    exact ⟨_,rows,rfl,rfl,rfl,.unclaimed rfl rfl rfl rfl rfl⟩
  | refuse read | drop read =>
    obtain ⟨here,_⟩ := mine read rfl
    refine statement_handles ran (fun _ => ?_) fun failed => by subst failed; cases spare
    have none' : (s.setObject read.id none).objects row.id = none := by simp [Store.setObject,here]
    exact ⟨row,one,rfl,rfl,rfl,.cleared rfl rfl none' rfl rfl
      ⟨rfl,handled_mine fits rfl rfl,nofun,nofun,fun _ => fits.held rfl,fun _ _ => none',nofun,nofun,nofun,nofun⟩⟩
  | reject read =>
    obtain ⟨here,_⟩ := mine read rfl
    refine plain_handles one ran rfl rfl ?_
    have rows := update_one one here (·.status = .uploading) fun row => { row with status := .rejected }
    by_cases uploading : row.status = .uploading
    · rw [if_pos (decide_eq_true uploading)] at rows
      refine ⟨_,rows,rfl,rfl,rfl,.rejected uploading rfl rfl rfl rfl rfl rfl (light_fits rfl fun other same => ?_)⟩
      cases same
      exact mine read rfl
    rw [if_neg (by simpa using uploading)] at rows
    exact Bystander.light ⟨rows.trans one.symm,rfl,rfl⟩ one rfl rfl rfl (handled_mine fits rfl rfl)
  | probe =>
    refine asked_handles ran (fun blocked => ?_) fun failed => by subst failed; cases spare
    split
    · exact still.handles one ⟨rfl,handled_mine fits rfl rfl,nofun,nofun,fun _ => fits.held rfl,nofun,nofun,nofun,nofun,nofun⟩
        (fun _ => rfl) (fun _ => rfl) nofun nofun
    exact still.handles one ⟨rfl,handled_mine fits rfl rfl,nofun,nofun,fun _ => fits.held rfl,nofun,fun _ => fits.full rfl,nofun,nofun,nofun⟩
      (fun _ => rfl) (fun _ => rfl) nofun nofun
  | transition read =>
    obtain ⟨here,_⟩ := mine read rfl
    refine statement_handles ran (fun _ => ?_) fun failed => by subst failed; cases spare
    have rows := update_one one here (fun row => row.status = .uploading && s.accepting) fun row => { row with status := .quarantined }
    rw [matching_one one here]
    by_cases open' : (row.status = .uploading && s.accepting)
    · rw [if_pos open']
      rw [if_pos open'] at rows
      have uploading : row.status = .uploading := of_decide_eq_true (Bool.and_eq_true_iff.mp open').1
      exact ⟨_,rows,rfl,rfl,rfl,.quarantined uploading rfl rfl rfl (fits.full rfl) rfl⟩
    rw [if_neg open']
    rw [if_neg open'] at rows
    exact Bystander.handles ⟨rows.trans one.symm,rfl,rfl⟩ one
      ⟨rfl,handled_mine fits rfl rfl,nofun,nofun,fun _ => fits.held rfl,nofun,nofun,nofun,nofun,nofun⟩ (fun _ => rfl) (fun _ => rfl) nofun nofun
  | acceptHead =>
    refine plain_handles one ran rfl rfl ?_
    split
    · exact still.light one rfl rfl rfl none_read
    exact still.light one rfl rfl rfl (handled_mine fits rfl rfl)
  | acceptMark read =>
    obtain ⟨here,_⟩ := mine read rfl
    cases reply with
    | flag =>
      have rows := update_one one here (·.status = .quarantined) fun row => { row with status := .accepted }
      obtain ⟨marks,rfl,rfl⟩ | ⟨rfl,rfl⟩ := acceptMark_called ran
      · rw [matching_one one here] at marks
        have quarantined : row.status = .quarantined := of_decide_eq_true marks
        rw [if_pos marks] at rows
        refine ⟨_,rows,rfl,rfl,rfl,.accepted quarantined rfl rfl rfl rfl rfl (light_fits rfl fun other same => ?_)⟩
        cases same
        exact mine read rfl
      exact still.light one rfl rfl rfl none_read
    | failed => cases ran; exact still.light one rfl rfl rfl none_read
    | ok | composed => cases ran
  | lifeDay id =>
    refine statement_handles ran (fun _ => ?_) fun _ => still.light one rfl rfl rfl none_read
    split
    · rename_i read found
      obtain ⟨same,_⟩ := row_one one found
      subst same
      split
      · exact still.light one rfl rfl rfl none_read
      split
      · rename_i uploading
        obtain ⟨begun,free,dooms⟩ := expireUpload_fits read (s.objects read.id) fun other => absurd uploading other
        exact still.handles one begun (off free) nofun (fun doomed => .inr (dooms doomed)) nofun
      exact still.light one rfl rfl rfl none_read
    exact still.light one rfl rfl rfl none_read
  | lifeRetention id =>
    refine statement_handles ran (fun _ => ?_) fun _ => still.light one rfl rfl rfl none_read
    split
    · rename_i read found
      obtain ⟨same,_⟩ := row_one one found
      subst same
      split
      · exact still.light one rfl rfl rfl none_read
      rename_i ends
      have live : read.status.terminal = false := eq_false_iff.mpr ends
      obtain ⟨begun,free,dooms⟩ := expireUpload_fits read (s.objects read.id) (live_status live)
      exact still.handles one begun (off free) nofun (fun doomed => .inr (dooms doomed)) nofun
    exact still.light one rfl rfl rfl none_read
  | expireAbort read =>
    have uploading := fits.aborting read rfl
    have calm : (Pc.expireMark read).doomed = false ∧ (Pc.expireMark read).swept = false := by simp [Pc.doomed,Pc.step,Pc.swept,uploading]
    have goes : Fits row (s.objects row.id) (.expireMark read) :=
      ⟨rfl,handled_mine fits rfl rfl,nofun,nofun,nofun,nofun,nofun,fun doomed => absurd doomed (eq_false_iff.mp calm.1),
        fun swept => absurd swept (eq_false_iff.mp calm.2),nofun⟩
    obtain ⟨rows,objects,pickedUp⟩ := abort_rows (s := s) read.multipart
    refine statement_handles ran (fun _ => ?_) fun _ => still.handles one goes nofun nofun (fun doomed => .inl doomed) fun doomed => .inl doomed
    exact Bystander.handles ⟨rows,objects,pickedUp⟩ one goes nofun nofun (fun doomed => .inl doomed) fun doomed => .inl doomed
  | expireDelete read =>
    obtain ⟨here,_⟩ := mine read rfl
    have other := fits.deleting read rfl
    have doomed : (Pc.expireDelete read).doomed := decide_eq_true other
    refine statement_handles ran (fun _ => ?_) fun _ => ?_
    · have none' : (s.setObject read.id none).objects row.id = none := by simp [Store.setObject,here]
      exact ⟨row,one,rfl,rfl,rfl,.removed rfl rfl none' doomed doomed
        ⟨rfl,handled_mine fits rfl rfl,nofun,nofun,nofun,nofun,nofun,fun _ => fits.doomed doomed,fun _ => none',nofun⟩⟩
    exact still.handles one ⟨rfl,handled_mine fits rfl rfl,nofun,nofun,nofun,nofun,nofun,fun _ => fits.doomed doomed,nofun,nofun⟩
      nofun nofun (fun doomed => .inl doomed) fun doomed => .inl doomed
  | expireMark read =>
    obtain ⟨here,_⟩ := mine read rfl
    refine statement_handles ran (fun ok => ?_) fun _ => ?_
    · subst ok
      have rows : (s.expire read.id [.uploading,.quarantined,.rejected]).rows = _ := update_one one here _ _
      rw [matching_one one here]
      by_cases found : [Status.uploading,.quarantined,.rejected].contains row.status
      · rw [if_pos found]
        rw [if_pos found] at rows
        refine ⟨_,rows,rfl,rfl,rfl,.ended ?_ rfl rfl rfl (fun quarantined => ?_) rfl (fun doomed => doomed) ?_⟩
        · cases status : row.status with
          | accepted | expired => rw [status] at found; cases found
          | _ => rfl
        · by_cases uploading : read.status = .uploading
          · have spare' : (!(decide (read.status = .uploading) && s.matching read.id (·.status = .quarantined) && (s.objects read.id).isSome)) := spare
            rw [matching_one one here,here] at spare'
            simpa [uploading,quarantined] using spare'
          · exact fits.swept (decide_eq_true uploading)
        exact ⟨rfl,fun other same => by cases same; exact mine read rfl,nofun,nofun,nofun,nofun,nofun,nofun,nofun,fun _ => rfl⟩
      rw [if_neg found]
      rw [if_neg found] at rows
      have terminal : row.status.terminal := by
        cases status : row.status with
        | accepted | expired => rfl
        | _ => rw [status] at found; exact absurd rfl found
      exact Bystander.handles ⟨rows.trans one.symm,rfl,rfl⟩ one
        ⟨rfl,handled_mine fits rfl rfl,nofun,nofun,nofun,nofun,nofun,fun doomed => fits.doomed doomed,nofun,fun _ => terminal⟩
        nofun nofun (fun doomed => .inl doomed) fun _ => .inr terminal
    exact still.handles one ⟨rfl,handled_mine fits rfl rfl,nofun,nofun,nofun,nofun,nofun,fun doomed => fits.doomed doomed,nofun,nofun⟩
      nofun nofun (fun doomed => .inl doomed) fun doomed => .inl doomed
  | expireRelease =>
    have terminal := fits.closed rfl
    refine statement_handles ran (fun _ => ?_) fun _ => ?_
    · exact release_handles one ⟨rfl,handled_mine fits rfl rfl,nofun,nofun,nofun,nofun,nofun,fun doomed => fits.doomed doomed,nofun,fun _ => terminal⟩
        nofun nofun (fun doomed => doomed) fun doomed => doomed
    exact still.handles one ⟨rfl,handled_mine fits rfl rfl,nofun,nofun,nofun,nofun,nofun,fun doomed => fits.doomed doomed,nofun,nofun⟩
      nofun nofun (fun doomed => .inl doomed) fun doomed => .inl doomed
  | _ => cases fits.stranger
end

-- One upload in the hands of its operations: at most one completion holds it, none does
-- once the lifecycle deletes it, and its object is answered for.
structure Custody (w : World) (row : Upload) : Prop where
  one : w.store.rows = [row]
  fits : ∀ pc ∈ w.flows, Fits row (w.store.objects row.id) pc
  single : ∀ (i j : Nat) (p q : Pc), w.flows[i]? = some p → w.flows[j]? = some q → p.holder = true → q.holder = true → i = j
  apart : ∀ p ∈ w.flows, ∀ q ∈ w.flows, p.doomed = true → q.holder = false
  owed : (w.store.objects row.id).isSome = true → row.status = .quarantined ∨ row.status = .accepted ∨ ∃ pc ∈ w.flows, pc.owing = true
  whole : row.status = .quarantined → w.store.pickedUp row.id = true ∨ w.store.objects row.id = some row.size ∨ ∃ pc ∈ w.flows, pc.doomed = true

section
variable {w : World} {row row' : Upload} {index : Nat} {pc after q : Pc} {t : Store} {object : Option Nat}

theorem Fits.carry (fits : Fits row object q) (id : row'.id = row.id) (size : row'.size = row.size)
    (held : q.holder → ((row'.status = .uploading ∧ row'.claimed) ∨ row'.status = .expired) ∧ object' = object)
    (doomed : row.status ≠ .uploading → row'.status ≠ .uploading) (swept : q.swept → object = none → object' = none)
    (closed : row.status.terminal → row'.status.terminal) : Fits row' object' q where
  stranger := fits.stranger
  mine := by rw [id,size]; exact fits.mine
  aborting := fits.aborting
  deleting := fits.deleting
  held := fun holder => (held holder).1
  bare := fun holder free => (held holder).2.trans (fits.bare holder free)
  full := fun vouched => by
    have holder : q.holder := by cases q <;> first | rfl | cases vouched
    rw [(held holder).2,size]
    exact fits.full vouched
  doomed := fun dooms => doomed (fits.doomed dooms)
  swept := fun sweeps => swept sweeps (fits.swept sweeps)
  closed := fun closes => closed (fits.closed closes)

theorem Fits.unquarantined (fits : Fits row object q) (holder : q.holder) : row.status ≠ .quarantined := fun quarantined => by
  obtain ⟨uploading,_⟩ | expired := fits.held holder
  · cases quarantined.symm.trans uploading
  cases quarantined.symm.trans expired

theorem owing_holder (owes : q.owing) : q.holder := by
  cases q <;> first | rfl | cases owes

theorem doomed_free (dooms : q.doomed) : q.holder = false := by
  cases q <;> first | rfl | cases dooms

theorem swept_doomed (swept : q.swept) : q.doomed := by
  cases q <;> first | exact swept | cases swept

section
variable (custody : Custody w row)
include custody

theorem Custody.moves (here : w.flows[index]? = some pc) (one : t.rows = [row'])
    (own : Fits row' (t.objects row'.id) after)
    (others : ∀ other q, other ≠ index → w.flows[other]? = some q → Fits row (w.store.objects row.id) q → Fits row' (t.objects row'.id) q)
    (holder : after.holder → pc.holder ∨ ∀ q ∈ w.flows, q.holder = false)
    (taken : after.holder → ∀ q ∈ w.flows, q.doomed = false)
    (doomed : after.doomed → ∀ other q, other ≠ index → w.flows[other]? = some q → q.holder = false)
    (owed : (t.objects row'.id).isSome → row'.status = .quarantined ∨ row'.status = .accepted ∨ after.owing ∨ (pc.owing = false ∧ ∃ q ∈ w.flows, q.owing))
    (whole : row'.status = .quarantined → t.pickedUp row'.id ∨ t.objects row'.id = some row'.size ∨ after.doomed ∨
      (pc.doomed = false ∧ ∃ q ∈ w.flows, q.doomed)) :
    Custody { store := t, flows := w.flows.set index after } row' where
  one := one
  fits := fun q mem => by
    obtain rfl | ⟨other,apart,there⟩ := FlowLists.moved_member mem
    · exact own
    exact others other q apart there (custody.fits q (List.mem_of_getElem? there))
  single := fun i j p q atP atQ holdsP holdsQ => by
    obtain ⟨samei,samep⟩ | ⟨aparti,beforep⟩ := FlowLists.moved_get atP
    · obtain ⟨samej,_⟩ | ⟨apartj,beforeq⟩ := FlowLists.moved_get atQ
      · exact samei.trans samej.symm
      · subst samep
        obtain held | free := holder holdsP
        · exact absurd (custody.single index j pc q here beforeq held holdsQ) (Ne.symm apartj)
        rw [free q (List.mem_of_getElem? beforeq)] at holdsQ; cases holdsQ
    obtain ⟨samej,sameq⟩ | ⟨apartj,beforeq⟩ := FlowLists.moved_get atQ
    · subst sameq
      obtain held | free := holder holdsQ
      · exact absurd (custody.single i index p pc beforep here holdsP held) aparti
      rw [free p (List.mem_of_getElem? beforep)] at holdsP; cases holdsP
    exact custody.single i j p q beforep beforeq holdsP holdsQ
  apart := fun p memberP q memberQ dooms => eq_false_iff.mpr fun holds => by
    obtain rfl | ⟨i,aparti,beforep⟩ := FlowLists.moved_member memberP
    · obtain rfl | ⟨j,apartj,beforeq⟩ := FlowLists.moved_member memberQ
      · rw [doomed_free dooms] at holds; cases holds
      · rw [doomed dooms j q apartj beforeq] at holds; cases holds
    obtain rfl | ⟨j,apartj,beforeq⟩ := FlowLists.moved_member memberQ
    · rw [taken holds p (List.mem_of_getElem? beforep)] at dooms; cases dooms
    rw [custody.apart p (List.mem_of_getElem? beforep) q (List.mem_of_getElem? beforeq) dooms] at holds; cases holds
  owed := fun present => by
    obtain quarantined | accepted | owes | ⟨free,q,mem,owes⟩ := owed present
    · exact .inl quarantined
    · exact .inr (.inl accepted)
    · exact .inr (.inr ⟨after,FlowLists.moved_here here,owes⟩)
    obtain rfl | still := FlowLists.moved_still after here mem
    · cases free.symm.trans owes
    exact .inr (.inr ⟨q,still,owes⟩)
  whole := fun quarantined => by
    obtain picked | full | dooms | ⟨free,q,mem,dooms⟩ := whole quarantined
    · exact .inl picked
    · exact .inr (.inl full)
    · exact .inr (.inr ⟨after,FlowLists.moved_here here,dooms⟩)
    obtain rfl | still := FlowLists.moved_still after here mem
    · cases free.symm.trans dooms
    exact .inr (.inr ⟨q,still,dooms⟩)

theorem Custody.alone (here : w.flows[index]? = some pc) (holder : pc.holder) (apart : other ≠ index) (there : w.flows[other]? = some q) : q.holder = false :=
  eq_false_iff.mpr fun holds => apart (custody.single other index q pc there here holds holder)

theorem Custody.undoomed (here : w.flows[index]? = some pc) (holder : pc.holder) : ∀ q ∈ w.flows, q.doomed = false :=
  fun q mem => eq_false_iff.mpr fun dooms => off (custody.apart q mem pc (List.mem_of_getElem? here) dooms) holder

theorem Custody.free (status : row.status ≠ .uploading ∧ row.status ≠ .expired) : ∀ q ∈ w.flows, q.holder = false :=
  fun q mem => eq_false_iff.mpr fun holds => by
    obtain ⟨uploading,_⟩ | expired := (custody.fits q mem).held holds
    · exact status.1 uploading
    exact status.2 expired

theorem Custody.handled (here : w.flows[index]? = some pc) (handled : Handles w.store t row pc after) :
    ∃ row', row'.id = row.id ∧ row'.size = row.size ∧ Custody { store := t, flows := w.flows.set index after } row' := by
  obtain ⟨row',one,id,size,picked,handled⟩ := handled
  refine ⟨row',id,size,?_⟩
  have mem : pc ∈ w.flows := List.mem_of_getElem? here
  have mine := custody.fits pc mem
  rw [←id] at handled
  have owed := custody.owed
  have whole := custody.whole
  have fitsOf := custody.fits
  rw [←id] at owed whole fitsOf
  cases handled with
  | calm status claimed same fits holder owing doomed stays =>
    have carry : ∀ q : Pc, Fits row (w.store.objects row'.id) q → Fits row' (t.objects row'.id) q := fun q was =>
      was.carry id size (fun holds => ⟨by rw [status,claimed]; exact was.held holds,same⟩) (by rw [status]; exact fun is => is)
        (fun _ none' => same.trans none') (by rw [status]; exact fun is => is)
    refine custody.moves here one (carry after fits) (fun other q apart there was => carry q (by rw [id]; exact was)) (fun holds => .inl (holder holds))
      (fun holds => custody.undoomed here (holder holds)) (fun dooms other q apart there => ?_) (fun present => ?_) fun quarantined => ?_
    · obtain already | begun := doomed dooms
      · exact custody.apart pc mem q (List.mem_of_getElem? there) already
      · refine custody.free ?_ q (List.mem_of_getElem? there)
        obtain quarantined | rejected := begun
        · rw [quarantined]; exact ⟨nofun,nofun⟩
        rw [rejected]; exact ⟨nofun,nofun⟩
    · rw [same] at present
      rw [status]
      obtain quarantined | accepted | ⟨q,there,owes⟩ := owed present
      · exact .inl quarantined
      · exact .inr (.inl accepted)
      by_cases here' : pc.owing
      · exact .inr (.inr (.inl (owing here')))
      exact .inr (.inr (.inr ⟨eq_false_iff.mpr here',q,there,owes⟩))
    rw [status] at quarantined
    rw [same,size,picked]
    obtain gone | full | ⟨q,there,dooms⟩ := whole quarantined
    · exact .inl gone
    · exact .inr (.inl full)
    by_cases here' : pc.doomed
    · obtain still | terminal := stays here'
      · exact .inr (.inr (.inl still))
      · rw [quarantined] at terminal; cases terminal
    exact .inr (.inr (.inr ⟨eq_false_iff.mpr here',q,there,dooms⟩))
  | claimed before later same _ reads goes =>
    subst goes
    have free : ∀ q ∈ w.flows, q.holder = false := fun q there => eq_false_iff.mpr fun holds => by
      obtain ⟨_,claimed⟩ | expired := (custody.fits q there).held holds
      · cases before.2.symm.trans claimed
      cases before.1.symm.trans expired
    have none' : w.store.objects row'.id = none := by
      refine not_isSome_iff_eq_none.mp fun present => ?_
      obtain quarantined | accepted | ⟨q,there,owes⟩ := owed present
      · cases before.1.symm.trans quarantined
      · cases before.1.symm.trans accepted
      have holds := owing_holder owes
      rw [free q there] at holds; cases holds
    refine custody.moves here one ?_ (fun other q apart there was => ?_) (fun _ => .inr free) (fun _ q there => ?_) nofun (fun present => ?_)
      fun quarantined => ?_
    · refine ⟨rfl,fun other same' => ?_,nofun,nofun,fun _ => .inl later,fun _ _ => same.trans none',nofun,nofun,nofun,nofun⟩
      cases same'
      rw [id,size]
      exact reads
    · rw [←id] at was
      exact was.carry id size (off (free q (List.mem_of_getElem? there))) (fun other => absurd before.1 other) (fun _ nothing => same.trans nothing)
        (by rw [before.1]; nofun)
    · refine eq_false_iff.mpr fun dooms => (custody.fits q there).doomed dooms before.1
    · rw [same,none'] at present; cases present
    cases later.1.symm.trans quarantined
  | composed status _ holder owing fits =>
    refine custody.moves here one fits (fun other q apart there was => ?_) (fun _ => .inl holder) (fun _ => custody.undoomed here holder)
      (fun dooms => off (doomed_free dooms) (owing_holder owing)) (fun _ => .inr (.inr (.inl owing))) fun quarantined => ?_
    · have calm := custody.undoomed here holder q (List.mem_of_getElem? there)
      exact was.carry id size (off (custody.alone here holder apart there)) (by rw [status]; exact fun is => is) (fun swept => off calm (swept_doomed swept))
        (by rw [status]; exact fun is => is)
    rw [status] at quarantined
    exact absurd quarantined (mine.unquarantined holder)
  | unclaimed status same holder bare goes =>
    subst goes
    have none' : w.store.objects row'.id = none := by rw [id]; exact mine.bare holder bare
    refine custody.moves here one halted_fits (fun other q apart there was => ?_) nofun nofun nofun (fun present => ?_) fun quarantined => ?_
    · rw [←id] at was
      exact was.carry id size (off (custody.alone here holder apart there)) (by rw [status]; exact fun is => is) (fun _ nothing => same.trans nothing)
        (by rw [status]; exact fun is => is)
    · rw [same,none'] at present; cases present
    rw [status] at quarantined
    exact absurd quarantined (mine.unquarantined holder)
  | cleared status _ none' holder keeps fits =>
    refine custody.moves here one fits (fun other q apart there was => ?_) (fun _ => .inl holder) (fun _ => custody.undoomed here holder)
      (fun dooms => off (doomed_free dooms) keeps) (fun present => ?_) fun quarantined => ?_
    · exact was.carry id size (off (custody.alone here holder apart there)) (by rw [status]; exact fun is => is) (fun _ _ => none') (by rw [status]; exact fun is => is)
    · rw [none'] at present; cases present
    rw [status] at quarantined
    exact absurd quarantined (mine.unquarantined holder)
  | removed status _ none' doomed stays fits =>
    refine custody.moves here one fits (fun other q apart there was => ?_) (off (doomed_free stays)) (off (doomed_free stays)) (fun _ other q _ there => ?_)
      (fun present => ?_) fun _ => .inr (.inr (.inl stays))
    · have free := custody.apart pc mem q (List.mem_of_getElem? there) doomed
      exact was.carry id size (off free) (by rw [status]; exact fun is => is) (fun _ _ => none') (by rw [status]; exact fun is => is)
    · exact custody.apart pc mem q (List.mem_of_getElem? there) doomed
    rw [none'] at present; cases present
  | ended live status same owing gone settled stays fits =>
    refine custody.moves here one fits (fun other q apart there was => ?_) (off settled) (off settled) (fun dooms other q _ there => ?_)
      (fun present => ?_) fun quarantined => ?_
    · rw [←id] at was
      exact was.carry id size (fun _ => ⟨.inr status,same⟩) (fun _ => by rw [status]; nofun) (fun _ nothing => same.trans nothing) fun _ => by rw [status]; rfl
    · exact custody.apart pc mem q (List.mem_of_getElem? there) (stays dooms)
    · rw [same] at present
      obtain quarantined | accepted | owes := owed present
      · rw [gone quarantined] at present; cases present
      · rw [accepted] at live; cases live
      exact .inr (.inr (.inr ⟨owing,owes⟩))
    cases status.symm.trans quarantined
  | rejected before status same holder bare settled calm fits =>
    have none' : w.store.objects row'.id = none := by rw [id]; exact mine.bare holder bare
    refine custody.moves here one fits (fun other q apart there was => ?_) (off settled) (off settled) (off calm) (fun present => ?_) fun quarantined => ?_
    · rw [←id] at was
      exact was.carry id size (off (custody.alone here holder apart there)) (fun _ => by rw [status]; nofun) (fun _ nothing => same.trans nothing)
        (by rw [before]; nofun)
    · rw [same,none'] at present; cases present
    cases status.symm.trans quarantined
  | quarantined before status same holder full goes =>
    subst goes
    refine custody.moves here one halted_fits (fun other q apart there was => ?_) nofun nofun nofun (fun _ => .inl status) fun _ => ?_
    · rw [←id] at was
      exact was.carry id size (off (custody.alone here holder apart there)) (fun _ => by rw [status]; nofun) (fun _ nothing => same.trans nothing)
        (by rw [before]; nofun)
    exact .inr (.inl (by rw [same,size]; exact full))
  | accepted before status same _ settled calm fits =>
    have free : ∀ q ∈ w.flows, q.holder = false := custody.free ⟨by rw [before]; nofun,by rw [before]; nofun⟩
    refine custody.moves here one fits (fun other q apart there was => ?_) (off settled) (off settled) (off calm)
      (fun _ => .inr (.inl status)) fun quarantined => ?_
    · rw [←id] at was
      exact was.carry id size (off (free q (List.mem_of_getElem? there))) (fun _ => by rw [status]; nofun) (fun _ nothing => same.trans nothing)
        fun _ => by rw [status]; rfl
    cases status.symm.trans quarantined
end

theorem starts_nothing (stranger : pc.name = none) (reply : Reply) : pc.starts reply = [] := by
  cases pc with
  | workflow => cases stranger
  | _ => rfl

theorem Custody.begin (custody : Custody w row) (light : pc.light) (unread : pc.upload = none) : Custody (w.begin pc) row := by
  obtain ⟨holder,_,_,doomed,_⟩ := light_plain light
  have older : ∀ {place : Nat} {q : Pc}, (w.flows++[pc])[place]? = some q → q.holder → w.flows[place]? = some q := by
    intro _ q there holds
    rw [List.getElem?_append] at there
    split at there
    · exact there
    cases mem_singleton.mp (List.mem_of_getElem? there)
    cases holder.symm.trans holds
  refine ⟨custody.one,fun q mem => ?_,fun i j p q atP atQ holdsP holdsQ => ?_,fun p memberP q memberQ dooms => ?_,fun present => ?_,fun quarantined => ?_⟩
  · obtain old | new := mem_append.mp mem
    · exact custody.fits q old
    · cases mem_singleton.mp new
      exact light_fits light fun other same => by cases unread.symm.trans same
  · exact custody.single i j p q (older atP holdsP) (older atQ holdsQ) holdsP holdsQ
  · obtain oldP | newP := mem_append.mp memberP
    · obtain oldQ | newQ := mem_append.mp memberQ
      · exact custody.apart p oldP q oldQ dooms
      · cases mem_singleton.mp newQ; exact holder
    · cases mem_singleton.mp newP
      cases doomed.symm.trans dooms
  · obtain status | status | ⟨q,there,owes⟩ := custody.owed present
    · exact .inl status
    · exact .inr (.inl status)
    · exact .inr (.inr ⟨q,mem_append_left _ there,owes⟩)
  obtain picked | full | ⟨q,there,dooms⟩ := custody.whole quarantined
  · exact .inl picked
  · exact .inr (.inl full)
  exact .inr (.inr ⟨q,mem_append_left _ there,dooms⟩)

theorem Custody.settle (custody : Custody w row) (here : w.flows[index]? = some pc) (fits : Fits row (w.store.objects row.id) after)
    (settled : after.holder = false) (owing : pc.owing = false) (doomed : after.doomed → pc.doomed) (stays : pc.doomed → after.doomed ∨ row.status.terminal) :
    ∃ row', row'.id = row.id ∧ row'.size = row.size ∧ Custody { w with flows := w.flows.set index after } row' := by
  refine custody.handled here ((Bystander.refl _).handles custody.one fits (fun holds => ?_) (fun owes => ?_) (fun dooms => .inl (doomed dooms)) stays)
  · cases settled.symm.trans holds
  cases owing.symm.trans owes
end

def work (w : World) : Action → Option World
  | .init _ _ _ => none
  | action => next w action

def Work (w : World) (action : Action) (v : World) : Prop := work w action = some v

theorem work_next (taken : work w action = some v) : next w action = some v := by
  cases action with
  | init => cases taken
  | _ => exact taken

section
variable {w v : World} {row : Upload} {action : Action}

def Kind (id size : Nat) (w : World) : Prop := ∃ row : Upload, row.id = id ∧ row.size = size ∧ Custody w row

theorem custody_kind {id size : Nat} (mine : row.id = id ∧ row.size = size)
    (moved : ∃ row', row'.id = row.id ∧ row'.size = row.size ∧ Custody v row') : Kind id size v := by
  obtain ⟨row',sameId,sameSize,custody⟩ := moved
  exact ⟨row',sameId.trans mine.1,sameSize.trans mine.2,custody⟩

theorem step_fits {read : Upload} (within : pc.step = some read) (fits : Fits row object pc) :
    Fits row object (.expireThrown read) ∧ (read.id = row.id ∧ read.size = row.size) ∧ pc.owing = false ∧ (pc.doomed ↔ read.status ≠ .uploading) := by
  have doomed : pc.doomed = decide (read.status ≠ .uploading) := by simp only [Pc.doomed,within]
  have mine : read.id = row.id ∧ read.size = row.size := by
    cases pc with
    | expireAbort | expireDelete | expireMark | expireRelease | expired | expireThrown => cases within; exact fits.mine read rfl
    | _ => cases within
  refine ⟨⟨rfl,fun other same => ?_,nofun,nofun,nofun,nofun,nofun,fun dooms => fits.doomed (doomed.trans dooms),nofun,nofun⟩,mine,?_,?_⟩
  · cases same; exact mine
  · cases pc with
    | expireAbort | expireDelete | expireMark | expireRelease | expired | expireThrown => rfl
    | _ => cases within
  rw [doomed,decide_eq_true_eq]

theorem next_custody {id size : Nat} (kind : Kind id size w) (taken : Work w action v) (careful : orderly w action) : Kind id size v := by
  obtain ⟨row,sameId,sameSize,custody⟩ := kind
  have mine : row.id = id ∧ row.size = size := ⟨sameId,sameSize⟩
  have moved := work_next taken
  cases action with
  | init => cases taken
  | reply _ reply =>
    obtain ⟨pc,here,ran⟩ := bind_eq_some_iff.mp moved
    obtain ⟨⟨t,_⟩,called,same⟩ := map_eq_some_iff.mp ran
    cases same
    have fits := custody.fits pc (List.mem_of_getElem? here)
    have spare : pc.orderly w.store reply := by simpa only [orderly,here] using careful
    rw [starts_nothing fits.stranger,append_nil]
    exact custody_kind mine (custody.handled here (call_handles custody.one fits spare called))
  | crash index =>
    obtain ⟨pc,here,ran⟩ := bind_eq_some_iff.mp moved
    have fits := custody.fits pc (List.mem_of_getElem? here)
    have owing : pc.owing = false := by simpa only [orderly,here,Bool.not_eq_true'] using careful
    split at ran
    · rename_i read within
      cases ran
      obtain ⟨thrown,_,_,dooms⟩ := step_fits within fits
      refine custody_kind mine (custody.settle here thrown rfl owing (fun doomed => dooms.mpr ?_) fun doomed => .inl ?_)
      · exact of_decide_eq_true doomed
      exact decide_eq_true (dooms.mp doomed)
    rename_i outside
    have calm : pc.doomed = false := by simp only [Pc.doomed,outside]
    split at ran
    · cases ran
    · cases ran
    · cases ran
    cases ran
    exact custody_kind mine (custody.settle here (light_fits rfl none_read) rfl owing nofun fun doomed => by cases calm.symm.trans doomed)
  | again index =>
    obtain ⟨pc,here,ran⟩ := bind_eq_some_iff.mp moved
    obtain ⟨read,within,same⟩ := map_eq_some_iff.mp ran
    cases same
    have fits := custody.fits pc (List.mem_of_getElem? here)
    obtain ⟨_,known,owing,dooms⟩ := step_fits within fits
    refine custody_kind mine ?_
    unfold expireUpload
    split
    · rename_i uploading
      have calm : (Pc.expireAbort read).doomed = false := by simp [Pc.doomed,Pc.step,uploading]
      refine custody.settle here ⟨rfl,fun other same => ?_,fun other same => ?_,nofun,nofun,nofun,nofun,fun doomed => ?_,nofun,nofun⟩ rfl owing
        (fun doomed => ?_) fun doomed => absurd uploading (dooms.mp doomed)
      · cases same; exact known
      · cases same; exact uploading
      · cases calm.symm.trans doomed
      cases calm.symm.trans doomed
    rename_i other
    refine custody.settle here ⟨rfl,fun other same => ?_,nofun,fun read' same => ?_,nofun,nofun,nofun,fun _ => fits.doomed (dooms.mpr other),nofun,nofun⟩
      rfl owing (fun _ => dooms.mpr other) fun _ => .inl (decide_eq_true other)
    · cases same; exact known
    cases same; exact other
  | record =>
    obtain ⟨pc,here,ran⟩ := bind_eq_some_iff.mp moved
    have fits := custody.fits pc (List.mem_of_getElem? here)
    split at ran
    · cases ran
      exact custody_kind mine (custody.settle here (light_fits rfl none_read) rfl rfl nofun fun _ => .inr (fits.closed rfl))
    cases ran
  | close =>
    cases moved
    exact ⟨row,sameId,sameSize,custody.one,custody.fits,custody.single,custody.apart,custody.owed,custody.whole⟩
  | pickup picked =>
    obtain ⟨found,same⟩ := ite_none_right_eq_some.mp moved
    cases same
    obtain ⟨mem,there,status⟩ : ∃ found ∈ w.store.rows, found.id = picked ∧ found.status = .quarantined := by
      simpa [Store.matching,and_assoc] using found
    rw [custody.one] at there
    cases mem_singleton.mp there
    obtain ⟨here,quarantined⟩ := status
    have free : ∀ q ∈ w.flows, q.holder = false := custody.free ⟨by rw [quarantined]; nofun,by rw [quarantined]; nofun⟩
    have none' : (w.store.setObject picked none).objects row.id = none := by simp [Store.setObject,here]
    refine ⟨row,sameId,sameSize,custody.one,fun q there => ?_,custody.single,custody.apart,fun _ => .inl quarantined,fun _ => .inl ?_⟩
    · refine (custody.fits q there).carry rfl rfl (fun holds => ?_) (fun other => other) (fun _ _ => none') fun terminal => terminal
      rw [free q there] at holds; cases holds
    simp [here]
  | _ => cases moved; exact ⟨row,sameId,sameSize,custody.begin rfl rfl⟩
end

def Pc.request : Pc → Bool
  | .lifeDay _ | .lifeRetention _ | .lifeOver | .stopped _ => false
  | .expireAbort _ | .expireDelete _ | .expireMark _ | .expireRelease _ | .expired _ | .expireThrown _ => false
  | _ => true

theorem owing_request {pc : Pc} (owes : pc.owing) : pc.request := by
  cases pc <;> first | rfl | cases owes

def World.quiet (w : World) : Prop := ∀ pc ∈ w.flows, pc.request = false
def World.waiting (w : World) : Prop := ∀ pc ∈ w.flows, pc.step = none

-- An expired or rejected upload leaves no object, and a quarantined one has its bytes.
structure Tidy (w : World) : Prop where
  bare : w.quiet → ∀ row ∈ w.store.rows, row.status = .expired ∨ row.status = .rejected → w.store.objects row.id = none
  whole : w.quiet → w.waiting → ∀ row ∈ w.store.rows, row.status = .quarantined → w.store.pickedUp row.id = false →
    w.store.objects row.id = some row.size

theorem custody_tidy (custody : Custody w row) : Tidy w where
  bare := fun quiet found mem status => by
    rw [custody.one] at mem
    cases mem_singleton.mp mem
    refine not_isSome_iff_eq_none.mp fun present => ?_
    obtain quarantined | accepted | ⟨q,there,owes⟩ := custody.owed present
    · rw [quarantined] at status; obtain no | no := status <;> cases no
    · rw [accepted] at status; obtain no | no := status <;> cases no
    have calm := quiet q there
    rw [owing_request owes] at calm; cases calm
  whole := fun _ waiting found mem status unpicked => by
    rw [custody.one] at mem
    cases mem_singleton.mp mem
    obtain picked | full | ⟨q,there,dooms⟩ := custody.whole status
    · cases unpicked.symm.trans picked
    · exact full
    simp [Pc.doomed,waiting q there] at dooms

-- An upload as its init leaves it, with its lifecycle workflow.
structure Begun (w : World) (row : Upload) : Prop where
  rows : w.store.rows = [row]
  flows : w.flows = [.lifeDay row.id]
  status : row.status = .uploading
  unclaimed : row.claimed = false
  empty : w.store.objects row.id = none

theorem begun_custody (begun : Begun w row) : Custody w row := by
  have only : ∀ pc ∈ w.flows, pc = .lifeDay row.id := fun pc mem => by
    rw [begun.flows] at mem
    exact mem_singleton.mp mem
  refine ⟨begun.rows,fun pc mem => ?_,fun i j p q atP _ holds => ?_,fun p _ q memberQ _ => ?_,fun present => ?_,fun quarantined => ?_⟩
  · rw [only pc mem]; exact light_fits rfl none_read
  · rw [only p (List.mem_of_getElem? atP)] at holds; cases holds
  · rw [only q memberQ]; rfl
  · rw [begun.empty] at present; cases present
  cases begun.status.symm.trans quarantined

-- While no completion stops as it answers for the object, and no expiry that read an uploading row marks a
-- quarantined one, nothing is left behind.
theorem custody_kept {origin : World} {row : Upload} {actions : List Action} {w : World} (begun : Begun origin row)
    (run : Runs (Guarded Work fun w action => orderly w action = true) origin actions w) : Tidy w := by
  obtain ⟨_,_,_,custody⟩ := run.preserves (Kind row.id row.size) (fun _ _ _ kind taken => next_custody kind taken.1 taken.2) ⟨row,rfl,rfl,begun_custody begun⟩
  exact custody_tidy custody

def uploaded : Upload :=
  { id := 7, creator := 0, multipart := some 0, file := 0, size := 5, status := .uploading, claimed := false, released := false }

def held : Store := { Store.fresh 4 10 with reservedFiles := 1, reservedBytes := 5, rows := [uploaded], multiparts := fun _ => .opened }
def begun : World := ⟨held,[.lifeDay 7]⟩

theorem begun_holds : Begun begun uploaded := ⟨rfl,rfl,rfl,rfl,rfl⟩

def proceed (actions : List Action) : Option World := follow work begun actions
def probed : List Action := .complete 7 :: replies 1 [.ok,.ok,.composed 5]
def retained : List Action := probed++replies 1 [.flag false,.ok]++replies 0 [.ok,.ok,.ok,.ok,.ok]++[.record 0]
def retainedWorld : World := (proceed retained).getD begun

theorem custody_kept_example : retainedWorld.store.rows.map (·.status) = [.expired] ∧ retainedWorld.flows = [.lifeOver,halted] ∧ Tidy retainedWorld :=
  have run : Runs (Guarded Work fun w action => orderly w action = true) begun retained retainedWorld := Runs.of_checked rfl
  ⟨rfl,rfl,custody_kept begun_holds run⟩

-- A completion that crashes once it has its object; an expiry that overtakes the completion
-- between its read and its UPDATE.
def orphaned : List Action := probed++[.crash 1]++replies 0 [.ok,.ok,.ok,.ok]++[.record 0]
def overtaken : List Action := probed++replies 1 [.flag false]++replies 0 [.ok,.ok]++replies 1 [.ok]++replies 0 [.ok,.ok]++[.record 0]

theorem finished_quiet {w : World} (finished : w.flows = [.lifeOver,halted]) : w.quiet := by
  unfold World.quiet
  rw [finished]
  decide

theorem custody_lost : (∃ w, proceed orphaned = some w ∧ w.store.rows.map (·.status) = [.expired] ∧ w.flows = [.lifeOver,halted] ∧
      w.store.objects 7 = some 5 ∧ ¬Tidy w) ∧ (∃ w, proceed overtaken = some w ∧ w.store.rows.map (·.status) = [.expired] ∧ w.flows = [.lifeOver,halted] ∧
      w.store.objects 7 = some 5 ∧ ¬Tidy w) := by
  refine ⟨⟨_,rfl,rfl,rfl,rfl,fun tidy => ?_⟩,⟨_,rfl,rfl,rfl,rfl,fun tidy => ?_⟩⟩
  · have gone : some 5 = none := tidy.bare (finished_quiet rfl) _ (.head _) (.inl rfl)
    cases gone
  have gone : some 5 = none := tidy.bare (finished_quiet rfl) _ (.head _) (.inl rfl)
  cases gone
end LedgeTopOps.IncomingUploads

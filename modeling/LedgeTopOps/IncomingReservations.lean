import LedgeTopOps.IncomingUploads
import LedgeTopOps.FlowLists

namespace LedgeTopOps.IncomingUploads
open List KeyedRows StepRuns
open Option (bind_eq_some_iff map_eq_some_iff)

structure Account where
  (id creator : Nat)
  released : Bool
  size : Nat

def Upload.account (row : Upload) : Account := ⟨row.id,row.creator,row.released,row.size⟩
def Account.files (account : Account) : Int := if account.released then 0 else 1
def Account.bytes (account : Account) : Int := if account.released then 0 else account.size
def Pc.heldFiles (pc : Pc) : Int := if pc.holding.isSome then 1 else 0
def Pc.heldBytes (pc : Pc) : Int := ((pc.holding.getD 0 : Nat) : Int)
def Store.accounts (s : Store) : List Account := s.rows.map Upload.account

def Pc.early : Pc → Bool
  | .initRead _ | .reserve _ | .insert _ | .insertFailed _ => true
  | .undoDelete _ false false | .undoGive _ false => true
  | .stopped (some _) => true
  | _ => false

def Pc.name : Pc → Option Nat
  | .initRead input | .reserve input | .insert input | .insertFailed input | .raced input | .create input | .initialise input _ | .lost input _
  | .workflow input _ | .workflowAbort input _ | .workflowDelete input _ | .undoAbort input _ | .undoDelete input _ _ | .undoGive input _ => some input.name
  | _ => none

-- The states in which the cleanup of an init does no harm.
def Pc.spared (s : Store) : Pc → Bool
  | .undoDelete input _ _ => !s.matching input.id (·.status = .uploading)
  | .workflowDelete input _ => !s.matching input.id fun _ => true
  | .undoGive _ inserted => !inserted
  | _ => true

def spared (w : World) : Action → Bool
  | .reply index .ok => match w.flows[index]? with
    | some pc => pc.spared w.store
    | none => true
  | _ => true

-- A change that no account sees.
structure Quiet (s t : Store) : Prop where
  accounts : t.accounts = s.accounts
  files : t.reservedFiles = s.reservedFiles
  bytes : t.reservedBytes = s.reservedBytes
  returned : t.returned = s.returned
  limits : t.maxFiles = s.maxFiles ∧ t.maxBytes = s.maxBytes

section
variable {s : Store} {id : Nat}

theorem Quiet.refl (s : Store) : Quiet s s := ⟨rfl,rfl,rfl,rfl,rfl,rfl⟩

theorem update_quiet (kept : ∀ row, (change row).account = row.account) : Quiet s (s.update id condition change) where
  accounts := by
    refine amend_map Upload.id s.rows id Upload.account _ fun row _ _ => ?_
    split
    · exact kept row
    rfl
  files := rfl
  bytes := rfl
  returned := rfl
  limits := ⟨rfl,rfl⟩

theorem abort_quiet : Quiet s (s.abort multipart) := by
  unfold Store.abort
  split
  · split
    · exact ⟨rfl,rfl,rfl,rfl,rfl,rfl⟩
    · exact Quiet.refl s
  exact Quiet.refl s

theorem expire_quiet : Quiet s (s.expire id statuses) := update_quiet fun _ => rfl
theorem setObject_quiet : Quiet s (s.setObject id object) := ⟨rfl,rfl,rfl,rfl,rfl,rfl⟩
theorem row_some (found : s.row id = some row) : row ∈ s.rows ∧ row.id = id := find_some found

theorem matching_none (missing : s.matching id condition = false) : ∀ row ∈ s.rows, row.id = id → condition row = false := by
  intro row mem here
  have each := any_eq_false.mp missing row mem
  simpa [here] using each

theorem filter_quiet (same : rows = s.rows) : Quiet s { s with rows := rows } := by
  subst same
  exact Quiet.refl s

theorem undoDelete_idle (missing : s.matching id (·.status = .uploading) = false) :
    (s.rows.filter fun row => !(row.id = id && row.status = .uploading)) = s.rows := by
  refine filter_eq_self.mpr fun row mem => ?_
  by_cases here : row.id = id
  · simpa [here] using matching_none missing row mem here
  simp [here]

theorem workflowDelete_idle (missing : (s.matching id fun _ => true) = false) : (s.rows.filter fun row => row.id ≠ id) = s.rows := by
  refine filter_eq_self.mpr fun row mem => decide_eq_true fun here => ?_
  have each := matching_none missing row mem here
  cases each
end

inductive Booked (s t : Store) (pc after : Pc) : Prop where
  | quiet (kept : Quiet s t) (held : after.holding = pc.holding) (late : after.early = true → pc.early = true ∧ (after.name = none ∨ after.name = pc.name))
  | reserved (input : Input) (from' : pc = .reserve input) (room : s.mayReserve input.size = true) (effect : t = s.reserve input.size)
      (goes : after = .insert input)
  | inserted (input : Input) (from' : pc = .insert input) (absent : s.row input.id = none)
      (effect : t = { s with rows := s.rows++[newUpload input] }) (goes : after = .create input)
  | returned (input : Input) (own : pc.name = some input.name) (early : pc.early = true) (held : pc.holding = some input.size)
      (effect : t = s.giveBack input.name input.size) (settled : after.early = false) (nothing : after.holding = none)
  | released (id : Nat) (effect : t = s.releaseReservedQuota id) (early : pc.early = false) (held : pc.holding = none)
      (settled : after.early = false) (nothing : after.holding = none)

section
variable {pc after goes : Pc} {reply : Reply}

theorem statement_booked (ran : statement s effect goes fails reply = some (t,after)) (good : reply = .ok → Booked s effect pc goes)
    (bad : Booked s s pc fails) : Booked s t pc after := by
  cases reply with
  | ok => cases ran; exact good rfl
  | failed => cases ran; exact bad
  | composed | flag => cases ran

theorem asked_booked (ran : asked s going fails reply = some (t,after)) (good : ∀ yes, Booked s s pc (going yes))
    (bad : Booked s s pc fails) : Booked s t pc after := by
  cases reply with
  | flag yes => cases ran; exact good yes
  | failed => cases ran; exact bad
  | composed | ok => cases ran

def Pc.plain (pc : Pc) : Prop := pc.holding = none ∧ pc.early = false

theorem plain_halted : halted.plain := ⟨rfl,rfl⟩

theorem plain_booked (quiet : Quiet s t) (before : pc.plain) (later : after.plain) : Booked s t pc after :=
  .quiet quiet (later.1.trans before.1.symm) fun early => by cases later.2.symm.trans early

theorem release_booked {id : Nat} (before : pc.plain) (later : after.plain) : Booked s (s.releaseReservedQuota id) pc after :=
  .released id rfl before.2 before.1 later.2 later.1

theorem if_plain [Decidable condition] {first second : Pc} (left : first.plain) (right : second.plain) : (if condition then first else second).plain := by
  split
  · exact left
  exact right

theorem expireUpload_plain : (expireUpload row).plain := if_plain ⟨rfl,rfl⟩ ⟨rfl,rfl⟩

theorem call_booked (spare : reply = .ok → pc.spared s) (ran : pc.call s reply = some (t,after)) : Booked s t pc after := by
  have still := Quiet.refl s
  cases pc with
  | initRead =>
    refine statement_booked ran (fun _ => ?_) (.quiet still rfl nofun)
    split
    · exact .quiet still rfl nofun
    exact .quiet still rfl fun _ => ⟨rfl,.inr rfl⟩
  | reserve input =>
    refine statement_booked ran (fun _ => ?_) (.quiet still rfl nofun)
    by_cases room : s.mayReserve input.size
    · rw [if_pos room,if_pos room]
      exact .reserved input rfl room rfl rfl
    rw [if_neg room,if_neg room]
    exact .quiet still rfl nofun
  | insert input =>
    have ran' : (if (s.row input.id).isSome then statement s s (.insertFailed input) (.insertFailed input) reply
      else statement s { s with rows := s.rows++[newUpload input] } (.create input) (.insertFailed input) reply) = some (t,after) := ran
    split at ran'
    · exact statement_booked ran' (fun _ => .quiet still rfl fun _ => ⟨rfl,.inr rfl⟩) (.quiet still rfl fun _ => ⟨rfl,.inr rfl⟩)
    rename_i absent
    refine statement_booked ran' (fun _ => .inserted input rfl ?_ rfl rfl) (.quiet still rfl fun _ => ⟨rfl,.inr rfl⟩)
    cases found : s.row input.id with
    | none => rfl
    | some => rw [found] at absent; exact absurd rfl absent
  | insertFailed input =>
    exact statement_booked ran (fun _ => .returned input rfl rfl rfl rfl rfl rfl) (.quiet still rfl fun _ => ⟨rfl,.inr rfl⟩)
  | raced => exact statement_booked ran (fun _ => plain_booked still ⟨rfl,rfl⟩ ⟨rfl,rfl⟩) (plain_booked still ⟨rfl,rfl⟩ ⟨rfl,rfl⟩)
  | create =>
    exact statement_booked ran (fun _ => plain_booked ⟨rfl,rfl,rfl,rfl,rfl,rfl⟩ ⟨rfl,rfl⟩ ⟨rfl,rfl⟩) (plain_booked still ⟨rfl,rfl⟩ ⟨rfl,rfl⟩)
  | initialise | claim | transition =>
    exact statement_booked ran (fun _ => plain_booked (update_quiet fun _ => rfl) ⟨rfl,rfl⟩ (if_plain ⟨rfl,rfl⟩ ⟨rfl,rfl⟩))
      (plain_booked still ⟨rfl,rfl⟩ ⟨rfl,rfl⟩)
  | lost | workflowAbort | undoAbort | expireAbort =>
    exact statement_booked ran (fun _ => plain_booked abort_quiet ⟨rfl,rfl⟩ ⟨rfl,rfl⟩) (plain_booked still ⟨rfl,rfl⟩ ⟨rfl,rfl⟩)
  | workflow =>
    exact asked_booked ran (fun _ => plain_booked still ⟨rfl,rfl⟩ plain_halted) (plain_booked still ⟨rfl,rfl⟩ ⟨rfl,rfl⟩)
  | workflowDelete input =>
    refine statement_booked ran (fun ok => ?_) (plain_booked still ⟨rfl,rfl⟩ ⟨rfl,rfl⟩)
    have missing : (s.matching input.id fun _ => true) = false := by simpa [Pc.spared] using spare ok
    exact plain_booked (filter_quiet (workflowDelete_idle missing)) ⟨rfl,rfl⟩ ⟨rfl,rfl⟩
  | undoDelete input inserted released =>
    have held : Pc.holding (.stopped (if inserted || released then none else some input.size)) = (Pc.undoDelete input inserted released).holding := by
      cases inserted <;> cases released <;> rfl
    have late : Pc.early (.stopped (if inserted || released then none else some input.size)) → (Pc.undoDelete input inserted released).early ∧
        (Pc.name (.stopped (if inserted || released then none else some input.size)) = none ∨
          Pc.name (.stopped (if inserted || released then none else some input.size)) = (Pc.undoDelete input inserted released).name) := by
      intro early
      cases inserted <;> cases released <;> first | exact ⟨rfl,.inl rfl⟩ | simp [Pc.early] at early
    refine statement_booked ran (fun ok => ?_) (.quiet still held late)
    have missing : s.matching input.id (·.status = .uploading) = false := by simpa [Pc.spared] using spare ok
    have quiet := filter_quiet (undoDelete_idle missing)
    cases released with
    | true =>
      cases inserted <;> exact .quiet quiet rfl nofun
    | false =>
      cases inserted with
      | true => exact .quiet quiet rfl nofun
      | false => exact .quiet quiet rfl fun _ => ⟨rfl,.inr rfl⟩
  | undoGive input inserted =>
    cases inserted with
    | true =>
      refine statement_booked ran (fun ok => ?_) (.quiet still rfl nofun)
      exact absurd (spare ok) (by simp [Pc.spared])
    | false => exact statement_booked ran (fun _ => .returned input rfl rfl rfl rfl rfl rfl) (.quiet still rfl fun _ => ⟨rfl,.inl rfl⟩)
  | cancelRead =>
    refine statement_booked ran (fun _ => plain_booked still ⟨rfl,rfl⟩ ?_) (plain_booked still ⟨rfl,rfl⟩ plain_halted)
    split
    · exact if_plain (if_plain ⟨rfl,rfl⟩ ⟨rfl,rfl⟩) plain_halted
    exact plain_halted
  | cancelAbort =>
    exact statement_booked ran (fun _ => plain_booked abort_quiet ⟨rfl,rfl⟩ ⟨rfl,rfl⟩) (plain_booked still ⟨rfl,rfl⟩ plain_halted)
  | cancelMark | dropMark =>
    exact statement_booked ran (fun _ => plain_booked expire_quiet ⟨rfl,rfl⟩ (if_plain ⟨rfl,rfl⟩ plain_halted)) (plain_booked still ⟨rfl,rfl⟩ plain_halted)
  | completeRead | acceptRead =>
    refine statement_booked ran (fun _ => plain_booked still ⟨rfl,rfl⟩ ?_) (plain_booked still ⟨rfl,rfl⟩ plain_halted)
    split
    · exact if_plain ⟨rfl,rfl⟩ plain_halted
    exact plain_halted
  | compose =>
    simp only [Pc.call] at ran
    split at ran
    · obtain ⟨_,same⟩ := Option.ite_none_right_eq_some.mp ran
      cases same
      exact plain_booked ⟨rfl,rfl,rfl,rfl,rfl,rfl⟩ ⟨rfl,rfl⟩ (if_plain ⟨rfl,rfl⟩ ⟨rfl,rfl⟩)
    · cases ran; exact plain_booked still ⟨rfl,rfl⟩ ⟨rfl,rfl⟩
    cases ran
  | composeFailed =>
    exact statement_booked ran (fun _ => plain_booked still ⟨rfl,rfl⟩ (if_plain ⟨rfl,rfl⟩ ⟨rfl,rfl⟩)) (plain_booked still ⟨rfl,rfl⟩ plain_halted)
  | unclaim | reject =>
    exact statement_booked ran (fun _ => plain_booked (update_quiet fun _ => rfl) ⟨rfl,rfl⟩ ⟨rfl,rfl⟩) (plain_booked still ⟨rfl,rfl⟩ plain_halted)
  | refuse | drop =>
    exact statement_booked ran (fun _ => plain_booked setObject_quiet ⟨rfl,rfl⟩ ⟨rfl,rfl⟩) (plain_booked still ⟨rfl,rfl⟩ plain_halted)
  | probe =>
    exact asked_booked ran (fun _ => plain_booked still ⟨rfl,rfl⟩ (if_plain ⟨rfl,rfl⟩ ⟨rfl,rfl⟩)) (plain_booked still ⟨rfl,rfl⟩ plain_halted)
  | acceptHead =>
    exact statement_booked ran (fun _ => plain_booked still ⟨rfl,rfl⟩ (if_plain plain_halted ⟨rfl,rfl⟩)) (plain_booked still ⟨rfl,rfl⟩ plain_halted)
  | acceptMark =>
    cases reply with
    | flag =>
      simp only [Pc.call] at ran
      split at ran
      · cases ran; exact plain_booked (update_quiet fun _ => rfl) ⟨rfl,rfl⟩ ⟨rfl,rfl⟩
      cases ran; exact plain_booked still ⟨rfl,rfl⟩ plain_halted
    | failed => cases ran; exact plain_booked still ⟨rfl,rfl⟩ plain_halted
    | ok | composed => cases ran
  | lifeDay | lifeRetention =>
    refine statement_booked ran (fun _ => plain_booked still ⟨rfl,rfl⟩ ?_) (plain_booked still ⟨rfl,rfl⟩ ⟨rfl,rfl⟩)
    split
    · first
        | exact if_plain ⟨rfl,rfl⟩ (if_plain expireUpload_plain ⟨rfl,rfl⟩)
        | exact if_plain ⟨rfl,rfl⟩ expireUpload_plain
    exact ⟨rfl,rfl⟩
  | expireDelete =>
    exact statement_booked ran (fun _ => plain_booked setObject_quiet ⟨rfl,rfl⟩ ⟨rfl,rfl⟩) (plain_booked still ⟨rfl,rfl⟩ ⟨rfl,rfl⟩)
  | expireMark =>
    exact statement_booked ran (fun _ => plain_booked expire_quiet ⟨rfl,rfl⟩ (if_plain ⟨rfl,rfl⟩ ⟨rfl,rfl⟩)) (plain_booked still ⟨rfl,rfl⟩ ⟨rfl,rfl⟩)
  | expireRelease => exact statement_booked ran (fun _ => release_booked ⟨rfl,rfl⟩ ⟨rfl,rfl⟩) (plain_booked still ⟨rfl,rfl⟩ ⟨rfl,rfl⟩)
  | expired | expireThrown | lifeOver | stopped => cases ran
  | _ =>
    exact statement_booked ran (fun _ => release_booked ⟨rfl,rfl⟩ plain_halted) (plain_booked still ⟨rfl,rfl⟩ plain_halted)
end

structure Accounted (w : World) : Prop where
  files : (w.store.reservedFiles : Int) = total Account.files w.store.accounts + total Pc.heldFiles w.flows
  bytes : (w.store.reservedBytes : Int) = total Account.bytes w.store.accounts + total Pc.heldBytes w.flows
  capped : w.store.reservedFiles ≤ w.store.maxFiles ∧ w.store.reservedBytes ≤ w.store.maxBytes
  returned : w.store.returned.Nodup

-- What keeps them so: every init has its own name, which no row or gift of another has.
structure Books (w : World) : Prop where
  accounted : Accounted w
  keyed : Keyed Account.id w.store.accounts
  creators : Keyed Account.creator w.store.accounts
  named : ∀ (index : Nat) (pc : Pc) (name : Nat), w.flows[index]? = some pc → pc.early = true → pc.name = some name → name = index
  started : ∀ account ∈ w.store.accounts, ∃ pc : Pc, w.flows[account.creator]? = some pc ∧ pc.early = false
  given : ∀ name ∈ w.store.returned, ∃ pc : Pc, w.flows[name]? = some pc ∧ pc.early = false
  owed : ∀ account ∈ w.store.accounts, account.released = false → account.creator ∉ w.store.returned

section
variable {w v : World} {index : Nat} {pc after : Pc} {s t : Store} {more : List Pc}

theorem moved_get {flows : List Pc} (there : (flows.set index after++more)[other]? = some found) :
    (other = index ∧ found = after) ∨ (other ≠ index ∧ flows[other]? = some found) ∨ found ∈ more := by
  rw [List.getElem?_append] at there
  split at there
  · exact (FlowLists.moved_get there).imp_right .inl
  exact .inr (.inr (List.mem_of_getElem? there))

theorem moved_own {flows : List Pc} (here : flows[index]? = some pc) : (flows.set index after++more)[index]? = some after := by
  rw [List.getElem?_append_left (by rw [length_set]; exact (List.getElem?_eq_some_iff.mp here).1)]
  exact FlowLists.moved_own here

theorem moved_other {flows : List Pc} (apart : other ≠ index) (there : flows[other]? = some found) : (flows.set index after++more)[other]? = some found := by
  rw [List.getElem?_append_left (by rw [length_set]; exact (List.getElem?_eq_some_iff.mp there).1)]
  exact FlowLists.moved_other apart there

theorem settled_moved {flows : List Pc} {name : Nat} (here : flows[index]? = some pc) (late : after.early → pc.early)
    (settled : ∃ pc : Pc, flows[name]? = some pc ∧ pc.early = false) : ∃ pc : Pc, (flows.set index after++more)[name]? = some pc ∧ pc.early = false := by
  obtain ⟨found,there,calm⟩ := settled
  by_cases same : name = index
  · subst same
    cases here.symm.trans there
    refine ⟨after,moved_own here,Bool.eq_false_iff.mpr fun early => ?_⟩
    rw [late early] at calm; cases calm
  exact ⟨found,moved_other same there,calm⟩

theorem heldFiles_eq (same : after.holding = pc.holding) : after.heldFiles = pc.heldFiles := by
  unfold Pc.heldFiles; rw [same]

theorem heldBytes_eq (same : after.holding = pc.holding) : after.heldBytes = pc.heldBytes := by
  unfold Pc.heldBytes; rw [same]

theorem starts_held (reply : Reply) : ∀ more ∈ pc.starts reply, more.holding = none ∧ more.early = false ∧ more.name = none := by
  intro _ mem
  unfold Pc.starts at mem
  split at mem
  · cases mem_singleton.mp mem
    exact ⟨rfl,rfl,rfl⟩
  cases mem

theorem total_none (none : ∀ pc ∈ flows, amount pc = 0) : total amount flows = 0 :=
  (total_congr amount none).trans total_zero

theorem moved_files (after : Pc) (here : flows[index]? = some pc) (idle : ∀ other ∈ more, other.holding = none) :
    total Pc.heldFiles (flows.set index after++more) = total Pc.heldFiles flows - pc.heldFiles + after.heldFiles := by
  have nothing : total Pc.heldFiles more = 0 := total_none fun other mem => by
    unfold Pc.heldFiles; rw [idle other mem]; rfl
  rw [total_append,total_set Pc.heldFiles here,nothing]
  omega

theorem moved_bytes (after : Pc) (here : flows[index]? = some pc) (idle : ∀ other ∈ more, other.holding = none) :
    total Pc.heldBytes (flows.set index after++more) = total Pc.heldBytes flows - pc.heldBytes + after.heldBytes := by
  have nothing : total Pc.heldBytes more = 0 := total_none fun other mem => by
    unfold Pc.heldBytes; rw [idle other mem]; rfl
  rw [total_append,total_set Pc.heldBytes here,nothing]
  omega

theorem Books.quiet (books : Books w) (kept : Quiet w.store v.store)
    (files : total Pc.heldFiles v.flows = total Pc.heldFiles w.flows) (bytes : total Pc.heldBytes v.flows = total Pc.heldBytes w.flows)
    (named : ∀ (index : Nat) (pc : Pc) (name : Nat), v.flows[index]? = some pc → pc.early → pc.name = some name → name = index)
    (settled : ∀ name : Nat, (∃ pc : Pc, w.flows[name]? = some pc ∧ pc.early = false) → ∃ pc : Pc, v.flows[name]? = some pc ∧ pc.early = false) : Books v := by
  obtain ⟨⟨filesWere,bytesWere,capped,once⟩,keyed,creators,_,started,given,owed⟩ := books
  obtain ⟨accounts,sameFiles,sameBytes,returned,limitFiles,limitBytes⟩ := kept
  refine ⟨⟨?_,?_,?_,?_⟩,?_,?_,named,?_,?_,?_⟩
  · rw [sameFiles,accounts,files]; exact filesWere
  · rw [sameBytes,accounts,bytes]; exact bytesWere
  · rw [sameFiles,sameBytes,limitFiles,limitBytes]; exact capped
  · rw [returned]; exact once
  · rw [accounts]; exact keyed
  · rw [accounts]; exact creators
  · rw [accounts]; exact fun account mem => settled _ (started account mem)
  · rw [returned]; exact fun name mem => settled _ (given name mem)
  rw [accounts,returned]; exact owed

theorem Books.begin (books : Books w) (nothing : pc.holding = none) (own : ∀ name, pc.name = some name → name = w.flows.length) : Books (w.begin pc) := by
  refine books.quiet (v := w.begin pc) (Quiet.refl _) ?_ ?_ ?_ ?_
  · show total Pc.heldFiles (w.flows++[pc]) = _
    rw [total_append,total_cons,total_nil]
    unfold Pc.heldFiles
    rw [nothing]
    simp
  · show total Pc.heldBytes (w.flows++[pc]) = _
    rw [total_append,total_cons,total_nil]
    unfold Pc.heldBytes
    rw [nothing]
    simp
  · intro index found name there early named
    have there' : (w.flows++[pc])[index]? = some found := there
    rw [List.getElem?_append] at there'
    split at there'
    · exact books.named index found name there' early named
    rename_i outside
    obtain ⟨inside,same⟩ := List.getElem?_eq_some_iff.mp there'
    have last : index = w.flows.length := by
      simp only [length_cons,length_nil] at inside
      omega
    cases mem_singleton.mp (List.mem_of_getElem? there')
    exact (own name named).trans last.symm
  intro name settled
  obtain ⟨found,there,calm⟩ := settled
  have inside : name < w.flows.length := (List.getElem?_eq_some_iff.mp there).1
  refine ⟨found,?_,calm⟩
  show (w.flows++[pc])[name]? = some found
  rw [List.getElem?_append_left inside]
  exact there

theorem holding_early (held : pc.holding = some size) : pc.early := by
  cases pc with
  | insert | insertFailed => rfl
  | undoDelete _ inserted released => cases inserted <;> cases released <;> first | rfl | cases held
  | undoGive _ inserted => cases inserted <;> first | rfl | cases held
  | stopped => cases held; rfl
  | _ => cases held

theorem Books.named_moved (books : Books w) (here : w.flows[index]? = some pc) (late : after.early → pc.early ∧ (after.name = none ∨ after.name = pc.name))
    (idle : ∀ other ∈ more, other.holding = none ∧ other.early = false ∧ other.name = none) :
    ∀ (other : Nat) (found : Pc) (name : Nat), (w.flows.set index after++more)[other]? = some found → found.early → found.name = some name → name = other := by
  intro other found name there early named
  obtain ⟨same,moved⟩ | ⟨_,before⟩ | fresh := moved_get there
  · subst same moved
    obtain ⟨wasEarly,nameless | kept⟩ := late early
    · cases nameless.symm.trans named
    exact books.named other pc name here wasEarly (kept.symm.trans named)
  · exact books.named other found name before early named
  rw [(idle found fresh).2.1] at early; cases early

theorem Books.apart (books : Books w) (here : w.flows[index]? = some pc) (early : pc.early) (own : pc.name = some name)
    (settled : ∃ found : Pc, w.flows[name]? = some found ∧ found.early = false) : False := by
  obtain ⟨_,there,calm⟩ := settled
  rw [books.named index pc name here early own] at there
  cases here.symm.trans there
  cases early.symm.trans calm

theorem accounts_files_nonneg (accounts : List Account) : 0 ≤ total Account.files accounts :=
  total_nonneg _ fun account _ => by unfold Account.files; split <;> decide

theorem accounts_bytes_nonneg (accounts : List Account) : 0 ≤ total Account.bytes accounts :=
  total_nonneg _ fun account _ => by unfold Account.bytes; split <;> omega

theorem flows_files_nonneg (flows : List Pc) : 0 ≤ total Pc.heldFiles flows :=
  total_nonneg _ fun pc _ => by unfold Pc.heldFiles; split <;> decide

theorem flows_bytes_nonneg (flows : List Pc) : 0 ≤ total Pc.heldBytes flows :=
  total_nonneg _ fun pc _ => by unfold Pc.heldBytes; omega

theorem Accounted.covers (accounted : Accounted w) (here : w.flows[index]? = some pc) (held : pc.holding = some size) :
    1 ≤ w.store.reservedFiles ∧ size ≤ w.store.reservedBytes := by
  have mem : pc ∈ w.flows := List.mem_of_getElem? here
  have one : pc.heldFiles = 1 := by unfold Pc.heldFiles; rw [held]; rfl
  have some' : pc.heldBytes = size := by unfold Pc.heldBytes; rw [held]; rfl
  have files := total_ge Pc.heldFiles (fun other _ => by unfold Pc.heldFiles; split <;> decide) mem
  have bytes := total_ge Pc.heldBytes (fun other _ => by unfold Pc.heldBytes; omega) mem
  have rowFiles := accounts_files_nonneg w.store.accounts
  have rowBytes := accounts_bytes_nonneg w.store.accounts
  have filesAre := accounted.files
  have bytesAre := accounted.bytes
  constructor <;> omega

theorem Accounted.covers_row (accounted : Accounted w) (mem : account ∈ w.store.accounts) (open' : account.released = false) :
    1 ≤ w.store.reservedFiles ∧ account.size ≤ w.store.reservedBytes := by
  have one : account.files = 1 := by unfold Account.files; rw [open']; rfl
  have some' : account.bytes = account.size := by unfold Account.bytes; rw [open']; rfl
  have files := total_ge Account.files (fun other _ => by unfold Account.files; split <;> decide) mem
  have bytes := total_ge Account.bytes (fun other _ => by unfold Account.bytes; split <;> omega) mem
  have flowFiles := flows_files_nonneg w.flows
  have flowBytes := flows_bytes_nonneg w.flows
  have filesAre := accounted.files
  have bytesAre := accounted.bytes
  constructor <;> omega

theorem accounts_release {id : Nat} :
    (w.store.amend id fun row => { row with released := true }).accounts =
      amend Account.id w.store.accounts id fun account => { account with released := true } := by
  unfold Store.accounts Store.amend amend
  rw [map_map,map_map]
  refine map_congr_left fun row _ => ?_
  by_cases here : row.id = id
  · simp [here,Upload.account]
  simp [here,Upload.account]

theorem Books.release (books : Books w) (id : Nat) : Books { w with store := w.store.releaseReservedQuota id } := by
  unfold Store.releaseReservedQuota
  split
  · rename_i row found
    split
    · exact books
    rename_i open'
    obtain ⟨mem,here⟩ := row_some found
    have held : row.account ∈ w.store.accounts := mem_map_of_mem mem
    have unreleased : row.account.released = false := Bool.eq_false_iff.mpr open'
    obtain ⟨one,some'⟩ := books.accounted.covers_row held unreleased
    have key : Account.id row.account = id := here
    have files : Account.files row.account = 1 := by unfold Account.files; rw [unreleased]; rfl
    have bytes : Account.bytes row.account = row.size := by unfold Account.bytes; rw [unreleased]; rfl
    have filesAre := books.accounted.files
    have bytesAre := books.accounted.bytes
    have rowBytes : row.account.size = row.size := rfl
    refine ⟨⟨?_,?_,?_,?_⟩,?_,?_,books.named,?_,?_,?_⟩
    · show ((w.store.reservedFiles - 1 : Nat) : Int) = total Account.files (w.store.amend id _).accounts + _
      rw [accounts_release,←key,books.keyed.total_amend Account.files held,files]
      have after : Account.files { row.account with released := true } = 0 := rfl
      rw [after]
      show _ = _ + total Pc.heldFiles w.flows
      omega
    · show ((w.store.reservedBytes - row.size : Nat) : Int) = total Account.bytes (w.store.amend id _).accounts + _
      rw [accounts_release,←key,books.keyed.total_amend Account.bytes held,bytes]
      have after : Account.bytes { row.account with released := true } = 0 := rfl
      rw [after]
      show _ = _ + total Pc.heldBytes w.flows
      omega
    · show w.store.reservedFiles - 1 ≤ w.store.maxFiles ∧ w.store.reservedBytes - row.size ≤ w.store.maxBytes
      have capped := books.accounted.capped
      omega
    · exact nodup_cons.mpr ⟨books.owed _ held unreleased,books.accounted.returned⟩
    · show Keyed Account.id (w.store.amend id _).accounts
      rw [accounts_release]
      exact books.keyed.amend _ fun _ _ _ => rfl
    · show (map Account.creator (w.store.amend id _).accounts).Nodup
      rw [accounts_release,amend_map Account.id w.store.accounts id Account.creator (fun account => { account with released := true }) fun _ _ _ => rfl]
      exact books.creators
    · intro account there
      have there' : account ∈ (w.store.amend id fun row => { row with released := true }).accounts := there
      rw [accounts_release] at there'
      obtain ⟨old,_⟩ | ⟨old,before,_,rfl⟩ := mem_amend.mp there'
      · exact books.started account old
      exact books.started old before
    · intro name there
      obtain rfl | older := mem_cons.mp there
      · exact books.started _ held
      exact books.given name older
    intro account there unpaid
    have there' : account ∈ (w.store.amend id fun row => { row with released := true }).accounts := there
    rw [accounts_release] at there'
    obtain ⟨old,other⟩ | ⟨old,before,_,rfl⟩ := mem_amend.mp there'
    · intro given
      obtain same | older := mem_cons.mp given
      · have equal : account = row.account := books.creators.unique old held same
        rw [equal] at other
        exact other here
      exact books.owed account old unpaid older
    cases unpaid
  · exact books

theorem Books.call (books : Books w) (here : w.flows[index]? = some pc) (booked : Booked w.store t pc after)
    (idle : ∀ other ∈ more, other.holding = none ∧ other.early = false ∧ other.name = none) : Books { store := t, flows := w.flows.set index after++more } := by
  have nothing : ∀ other ∈ more, other.holding = none := fun other mem => (idle other mem).1
  have movedFiles := moved_files after here nothing
  have movedBytes := moved_bytes after here nothing
  have filesAre := books.accounted.files
  have bytesAre := books.accounted.bytes
  cases booked with
  | quiet kept held late =>
    refine books.quiet kept ?_ ?_ (books.named_moved here late idle) fun name => settled_moved here fun early => (late early).1
    · rw [movedFiles,heldFiles_eq held]; omega
    rw [movedBytes,heldBytes_eq held]; omega
  | reserved input from' room effect goes =>
    subst from' effect goes
    have late : (Pc.insert input).early → (Pc.reserve input).early ∧
        ((Pc.insert input).name = none ∨ (Pc.insert input).name = (Pc.reserve input).name) := fun _ => ⟨rfl,.inr rfl⟩
    have room' := room
    simp only [Store.mayReserve,Bool.and_eq_true,decide_eq_true_eq] at room'
    have before : (Pc.reserve input).heldFiles = 0 ∧ (Pc.reserve input).heldBytes = 0 := ⟨rfl,rfl⟩
    have later : (Pc.insert input).heldFiles = 1 ∧ (Pc.insert input).heldBytes = input.size := ⟨rfl,rfl⟩
    refine ⟨⟨?_,?_,?_,books.accounted.returned⟩,books.keyed,books.creators,books.named_moved here late idle,?_,?_,books.owed⟩
    · show ((w.store.reservedFiles + 1 : Nat) : Int) = total Account.files w.store.accounts + _
      rw [movedFiles]; omega
    · show ((w.store.reservedBytes + input.size : Nat) : Int) = total Account.bytes w.store.accounts + _
      rw [movedBytes]; omega
    · exact ⟨room'.1.2,room'.2⟩
    · exact fun account mem => settled_moved here (fun early => (late early).1) (books.started account mem)
    exact fun name mem => settled_moved here (fun early => (late early).1) (books.given name mem)
  | inserted input from' absent effect goes =>
    subst from' effect goes
    have accounts : Store.accounts { w.store with rows := w.store.rows++[newUpload input] } = w.store.accounts++[⟨input.id,input.name,false,input.size⟩] := by
      simp [Store.accounts,Upload.account,newUpload]
    have before : (Pc.insert input).heldFiles = 1 ∧ (Pc.insert input).heldBytes = input.size := ⟨rfl,rfl⟩
    have later : (Pc.create input).heldFiles = 0 ∧ (Pc.create input).heldBytes = 0 := ⟨rfl,rfl⟩
    have fresh : ∀ account ∈ w.store.accounts, account.creator ≠ input.name := by
      intro account mem same
      exact books.apart here rfl rfl (same ▸ books.started account mem)
    refine ⟨⟨?_,?_,books.accounted.capped,books.accounted.returned⟩,?_,?_,books.named_moved here nofun idle,?_,?_,?_⟩
    · show (w.store.reservedFiles : Int) = total Account.files (Store.accounts _) + _
      rw [accounts,total_append,movedFiles]
      have one : total Account.files [⟨input.id,input.name,false,input.size⟩] = 1 := rfl
      omega
    · show (w.store.reservedBytes : Int) = total Account.bytes (Store.accounts _) + _
      rw [accounts,total_append,movedBytes]
      have one : total Account.bytes [⟨input.id,input.name,false,input.size⟩] = input.size := by simp [Account.bytes]
      omega
    · show Keyed Account.id (Store.accounts _)
      rw [accounts]
      refine books.keyed.add fun account mem same => ?_
      obtain ⟨row,there,rfl⟩ := mem_map.mp mem
      exact find_none.mp absent row there same
    · show Keyed Account.creator (Store.accounts _)
      rw [accounts]
      exact books.creators.add fresh
    · intro account mem
      have member' : account ∈ Store.accounts { w.store with rows := w.store.rows++[newUpload input] } := mem
      rw [accounts] at member'
      obtain old | new := mem_append.mp member'
      · exact settled_moved here nofun (books.started account old)
      cases mem_singleton.mp new
      refine ⟨.create input,?_,rfl⟩
      rw [books.named index _ input.name here rfl rfl]
      exact moved_own here
    · exact fun name mem => settled_moved here nofun (books.given name mem)
    intro account mem unpaid
    have member' : account ∈ Store.accounts { w.store with rows := w.store.rows++[newUpload input] } := mem
    rw [accounts] at member'
    obtain old | new := mem_append.mp member'
    · exact books.owed account old unpaid
    cases mem_singleton.mp new
    exact fun given => books.apart here rfl rfl (books.given _ given)
  | returned input own early held effect settled nothing' =>
    subst effect
    obtain ⟨one,some'⟩ := books.accounted.covers here held
    have before : pc.heldFiles = 1 ∧ pc.heldBytes = input.size := by
      unfold Pc.heldFiles Pc.heldBytes; rw [held]; exact ⟨rfl,rfl⟩
    have later : after.heldFiles = 0 ∧ after.heldBytes = 0 := by
      unfold Pc.heldFiles Pc.heldBytes; rw [nothing']; exact ⟨rfl,rfl⟩
    have late : after.early → pc.early ∧ (after.name = none ∨ after.name = pc.name) :=
      fun still => by cases settled.symm.trans still
    have late' : after.early → pc.early := fun still => (late still).1
    refine ⟨⟨?_,?_,?_,?_⟩,books.keyed,books.creators,books.named_moved here late idle,?_,?_,?_⟩
    · show ((w.store.reservedFiles - 1 : Nat) : Int) = total Account.files w.store.accounts + _
      rw [movedFiles]; omega
    · show ((w.store.reservedBytes - input.size : Nat) : Int) = total Account.bytes w.store.accounts + _
      rw [movedBytes]; omega
    · show w.store.reservedFiles - 1 ≤ w.store.maxFiles ∧ w.store.reservedBytes - input.size ≤ w.store.maxBytes
      have capped := books.accounted.capped
      omega
    · exact nodup_cons.mpr ⟨fun given => books.apart here early own (books.given _ given),books.accounted.returned⟩
    · exact fun account mem => settled_moved here late' (books.started account mem)
    · intro name mem
      obtain rfl | older := mem_cons.mp mem
      · refine ⟨after,?_,settled⟩
        rw [books.named index pc input.name here early own]
        exact moved_own here
      exact settled_moved here late' (books.given name older)
    intro account mem unpaid given
    obtain same | older := mem_cons.mp given
    · exact books.apart here early own (same ▸ books.started account mem)
    exact books.owed account mem unpaid older
  | released id effect _ held settled nothing' =>
    subst effect
    have late : after.early → pc.early ∧ (after.name = none ∨ after.name = pc.name) :=
      fun still => by cases settled.symm.trans still
    refine (books.release id).quiet (Quiet.refl _) ?_ ?_ (books.named_moved here late idle) fun name => settled_moved here fun early => (late early).1
    · show total Pc.heldFiles (w.flows.set index after++more) = total Pc.heldFiles w.flows
      rw [movedFiles,heldFiles_eq (nothing'.trans held.symm)]; omega
    show total Pc.heldBytes (w.flows.set index after++more) = total Pc.heldBytes w.flows
    rw [movedBytes,heldBytes_eq (nothing'.trans held.symm)]; omega

theorem Books.settle (books : Books w) (here : w.flows[index]? = some pc) (held : after.holding = pc.holding)
    (late : after.early → pc.early) (nameless : after.name = none) : Books { w with flows := w.flows.set index after } := by
  have booked : Booked w.store w.store pc after := .quiet (Quiet.refl _) held fun early => ⟨late early,.inl nameless⟩
  have none' : ∀ other ∈ ([] : List Pc), other.holding = none ∧ other.early = false ∧ other.name = none :=
    forall_mem_nil _
  have moved := books.call here booked none'
  rwa [append_nil] at moved

theorem step_plain (within : pc.step = some row) : pc.plain := by
  cases pc with
  | expireAbort | expireDelete | expireMark | expireRelease | expired | expireThrown => exact ⟨rfl,rfl⟩
  | _ => cases within

theorem next_books (books : Books w) (moved : next w action = some v) (spare : spared w action) : Books v := by
  cases action with
  | init => cases moved; exact books.begin rfl fun name own => (Option.some.inj own).symm
  | reply _ reply =>
    obtain ⟨_,here,ran⟩ := bind_eq_some_iff.mp moved
    obtain ⟨⟨t,_⟩,called,same⟩ := map_eq_some_iff.mp ran
    cases same
    refine books.call here (call_booked ?_ called) (starts_held reply)
    intro ok
    subst ok
    simpa only [spared,here] using spare
  | crash index =>
    obtain ⟨pc,here,ran⟩ := bind_eq_some_iff.mp moved
    split at ran
    · rename_i row within
      cases ran
      have plain := step_plain within
      exact books.settle here plain.1.symm nofun rfl
    split at ran
    · cases ran
    · cases ran
    · cases ran
    cases ran
    refine books.settle here rfl (fun early => ?_) rfl
    cases held : pc.holding with
    | none => rw [held] at early; cases early
    | some => exact holding_early held
  | again =>
    obtain ⟨pc,here,ran⟩ := bind_eq_some_iff.mp moved
    obtain ⟨row,within,same⟩ := map_eq_some_iff.mp ran
    cases same
    have plain := step_plain within
    have later : (expireUpload row).plain := expireUpload_plain
    refine books.settle here (later.1.trans plain.1.symm) (fun early => ?_) ?_
    · cases later.2.symm.trans early
    unfold expireUpload; split <;> rfl
  | record =>
    obtain ⟨_,here,ran⟩ := bind_eq_some_iff.mp moved
    split at ran
    · cases ran; exact books.settle here rfl nofun rfl
    cases ran
  | close => cases moved; exact books.quiet (v := _) ⟨rfl,rfl,rfl,rfl,rfl,rfl⟩ rfl rfl books.named fun _ settled => settled
  | pickup =>
    obtain ⟨_,same⟩ := Option.ite_none_right_eq_some.mp moved
    cases same
    exact books.quiet (v := _) ⟨rfl,rfl,rfl,rfl,rfl,rfl⟩ rfl rfl books.named fun _ settled => settled
  | _ => cases moved; exact books.begin rfl nofun

theorem booked_kept (booked : Booked s t pc after) (account : Account) (mem : account ∈ s.accounts) :
    ∃ kept ∈ t.accounts, kept.id = account.id ∧ kept.creator = account.creator := by
  cases booked with
  | quiet kept => exact ⟨account,kept.accounts.symm ▸ mem,rfl,rfl⟩
  | reserved _ _ _ effect | returned _ _ _ _ effect => subst effect; exact ⟨account,mem,rfl,rfl⟩
  | inserted _ _ _ effect =>
    subst effect
    refine ⟨account,?_,rfl,rfl⟩
    simp only [Store.accounts,map_append]
    exact mem_append_left _ mem
  | released id effect =>
    subst effect
    unfold Store.releaseReservedQuota
    split
    · split
      · exact ⟨account,mem,rfl,rfl⟩
      · obtain ⟨row,there,rfl⟩ := mem_map.mp mem
        by_cases here : row.id = id
        · refine ⟨Upload.account { row with released := true },?_,rfl,rfl⟩
          exact mem_map_of_mem (mem_amend.mpr (.inr ⟨row,there,here,rfl⟩))
        exact ⟨row.account,mem_map_of_mem (mem_amend.mpr (.inl ⟨there,here⟩)),rfl,rfl⟩
    exact ⟨account,mem,rfl,rfl⟩

def Kept (w v : World) : Prop := ∀ account ∈ w.store.accounts, ∃ kept ∈ v.store.accounts, kept.id = account.id ∧ kept.creator = account.creator

theorem Kept.trans (first : Kept w v) (second : Kept v u) : Kept w u := by
  intro account mem
  obtain ⟨middle,there,id,creator⟩ := first account mem
  obtain ⟨last,here,sameId,sameCreator⟩ := second middle there
  exact ⟨last,here,sameId.trans id,sameCreator.trans creator⟩

theorem kept_same (same : v.store.accounts = w.store.accounts) : Kept w v :=
  fun account mem => ⟨account,same.symm ▸ mem,rfl,rfl⟩

theorem next_kept (moved : next w action = some v) (spare : spared w action) : Kept w v := by
  cases action with
  | reply =>
    obtain ⟨_,here,ran⟩ := bind_eq_some_iff.mp moved
    obtain ⟨⟨t,_⟩,called,same⟩ := map_eq_some_iff.mp ran
    cases same
    refine booked_kept (call_booked ?_ called)
    intro ok
    subst ok
    simpa only [spared,here] using spare
  | crash =>
    obtain ⟨_,_,ran⟩ := bind_eq_some_iff.mp moved
    split at ran
    · cases ran; exact kept_same rfl
    split at ran
    · cases ran
    · cases ran
    · cases ran
    cases ran; exact kept_same rfl
  | again =>
    obtain ⟨_,_,ran⟩ := bind_eq_some_iff.mp moved
    obtain ⟨_,_,same⟩ := map_eq_some_iff.mp ran
    cases same; exact kept_same rfl
  | record =>
    obtain ⟨_,_,ran⟩ := bind_eq_some_iff.mp moved
    split at ran
    · cases ran; exact kept_same rfl
    cases ran
  | pickup =>
    obtain ⟨_,same⟩ := Option.ite_none_right_eq_some.mp moved
    cases same; exact kept_same rfl
  | _ => cases moved; exact kept_same rfl
end

def Store.fresh (maxFiles maxBytes : Nat) : Store where
  reservedFiles := 0
  reservedBytes := 0
  maxFiles := maxFiles
  maxBytes := maxBytes
  accepting := true
  rows := []
  objects := fun _ => none
  multiparts := fun _ => .absent
  nextMultipart := 0
  returned := []
  pickedUp := fun _ => false

def World.fresh (maxFiles maxBytes : Nat) : World := ⟨.fresh maxFiles maxBytes,[]⟩

theorem fresh_books (maxFiles maxBytes : Nat) : Books (World.fresh maxFiles maxBytes) :=
  { accounted := ⟨rfl,rfl,⟨Nat.zero_le _,Nat.zero_le _⟩,nodup_nil⟩
    keyed := nodup_nil
    creators := nodup_nil
    named := fun _ _ _ there => by cases there
    started := fun _ mem => by cases mem
    given := fun _ mem => by cases mem
    owed := fun _ mem => by cases mem }

def Step (w : World) (action : Action) (v : World) : Prop := next w action = some v

-- The quota of a request is accounted for, and nothing that follows loses a row.
def Reserved (w : World) : Prop :=
  Accounted w ∧ ∀ (later : List Action) (v : World), Runs (Guarded Step fun w action => spared w action = true) w later v → Kept w v

theorem run_kept (run : Runs (Guarded Step fun w action => spared w action) w later v) : Kept w v :=
  run.preserves (Kept w) (fun _ _ _ kept taken => kept.trans (next_kept taken.1 taken.2)) (kept_same rfl)

-- While no cleanup of an init finds a row to delete, and no init gives back what its row still stands for, the
-- reservations are accounted exactly.
theorem reservations_exact {maxFiles maxBytes : Nat} {actions : List Action} {w : World}
    (run : Runs (Guarded Step fun w action => spared w action = true) (World.fresh maxFiles maxBytes) actions w) : Reserved w := by
  have books := run.preserves Books (fun _ _ _ kept taken => next_books kept taken.1 taken.2) (fresh_books maxFiles maxBytes)
  exact ⟨books.accounted,fun _ _ later => run_kept later⟩

def arrive (actions : List Action) : Option World := follow next (World.fresh 4 10) actions
def replies (flow : Nat) (answers : List Reply) : List Action := answers.map (.reply flow)
def opened (name : Nat) : List Action := .init 7 0 5 :: replies name [.ok,.ok,.ok]

-- An upload that is cancelled, and an init whose row cannot be written.
def cancelled : List Action :=
  opened 0++replies 0 [.ok,.ok,.flag true]++.init 8 0 3 :: replies 2 [.ok,.ok,.failed,.ok,.ok,.ok]++.cancel 7 :: replies 3 [.ok,.ok,.ok,.ok]

def cancelledWorld : World := (arrive cancelled).getD (World.fresh 4 10)

theorem reservations_exact_example : cancelledWorld.store.returned = [0,2] ∧ cancelledWorld.store.reservedFiles = 0 ∧ Reserved cancelledWorld :=
  have run : Runs (Guarded Step fun w action => spared w action = true) (World.fresh 4 10) cancelled cancelledWorld := Runs.of_checked rfl
  ⟨rfl,rfl,reservations_exact run⟩

-- Two inits of one upload, the second losing; a cancelled upload whose init fails afterwards; an init that fails
-- after its row and cannot give its reservation back.
def lostRace : List Action := .init 7 0 5 :: .init 7 0 5 :: replies 0 [.ok,.ok]++replies 1 [.ok,.ok]++replies 0 [.ok]++replies 1 [.ok,.ok,.ok]
def paidTwice : List Action := opened 0++.cancel 7 :: replies 1 [.ok,.ok,.ok]++replies 0 [.failed,.ok,.ok]
def leaked : List Action := opened 0++replies 0 [.failed,.ok,.failed]

theorem reservations_inexact : (∃ w v, arrive lostRace = some w ∧ w.store.accounts = [⟨7,0,false,5⟩] ∧ Step w (.reply 1 .ok) v ∧ v.store.accounts = [] ∧
      v.store.reservedFiles = 1 ∧ v.flows.map Pc.holding = [none,none] ∧ ¬Accounted v ∧ ¬Kept w v) ∧
    (∃ w, arrive paidTwice = some w ∧ w.store.returned = [0,0] ∧ ¬Accounted w) ∧
    (∃ w, arrive leaked = some w ∧ w.flows = [.stopped none] ∧ w.store.accounts = [] ∧ w.store.reservedFiles = 1 ∧ ¬Accounted w) := by
  refine ⟨⟨_,_,rfl,rfl,rfl,rfl,rfl,rfl,fun accounted => ?_,fun kept => ?_⟩,⟨_,rfl,rfl,fun accounted => ?_⟩,⟨_,rfl,rfl,rfl,rfl,fun accounted => ?_⟩⟩
  · exact absurd accounted.files (by decide)
  · obtain ⟨_,member,_⟩ := kept ⟨7,0,false,5⟩ (.head _)
    cases member
  · exact absurd accounted.returned (by decide)
  exact absurd accounted.files (by decide)
end LedgeTopOps.IncomingUploads

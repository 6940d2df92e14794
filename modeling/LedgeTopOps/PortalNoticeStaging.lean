import LedgeTopOps.PortalNotices

namespace LedgeTopOps.PortalNotices
open List SqlBatches KeyedRows

structure Core (db : Db) : Prop where
  rows : Keyed Outbox.id db.outbox
  batches : Keyed Batch.id db.batches
  items : Keyed Item.outbox db.items
  limit : ∀ b, (db.itemsOf b).length ≤ 50
  single : ∀ b ∈ db.batches, ∀ c ∈ db.batches, b.isOpen = true → c.isOpen = true → b.lane = c.lane → b = c
  attempts : ∀ b ∈ db.batches, b.attempts ≤ 3
  published : ∀ b ∈ db.batches, b.recipient = b.dispatch.map (·.mail.to_)
  worked : ∀ b ∈ db.batches, b.status = .processing → b.sealedAt.isSome = true

def Db.suppressed (db : Db) (o : Id) : Prop := ∃ row ∈ db.outbox, row.id = o ∧ row.status = .suppressed

structure Valid (db : Db) : Prop where
  core : Core db
  staged : ∀ item ∈ db.items, db.suppressed item.outbox

structure Half (o : Id) (db : Db) : Prop where
  core : Core db
  staged : ∀ item ∈ db.items, (item.outbox = o ∧ ∃ row ∈ db.outbox, row.id = o ∧ row.untouched = true) ∨ db.suppressed item.outbox

structure Follows (b c : Batch) : Prop where
  id : c.id = b.id
  lane : c.lane = b.lane
  sealedAt : b.sealedAt.isSome = true → c.sealedAt = b.sealedAt
  final : b.status.final = true → c.status = b.status
  dispatch : ∀ fingerprint, b.dispatch = some fingerprint → c.dispatch = some fingerprint

structure Later (db after : Db) : Prop where
  batches : ∀ b ∈ db.batches, ∃ c ∈ after.batches, Follows b c
  items : db.items <+: after.items
  sealedItems : ∀ b ∈ db.batches, b.sealedAt.isSome = true → after.itemsOf b.id = db.itemsOf b.id

structure Quiet (db after : Db) : Prop where
  later : Later db after
  statuses : ∀ b ∈ db.batches, ∃ c ∈ after.batches, c.id = b.id ∧ c.status = b.status

theorem Follows.refl (b : Batch) : Follows b b := ⟨rfl,rfl,fun _ => rfl,fun _ => rfl,fun _ is => is⟩
theorem Later.refl (db : Db) : Later db db := ⟨fun b mem => ⟨b,mem,.refl b⟩,prefix_refl _,fun _ _ _ => rfl⟩

theorem Follows.trans (first : Follows a b) (second : Follows b c) : Follows a c where
  id := second.id.trans first.id
  lane := second.lane.trans first.lane
  sealedAt is := (second.sealedAt (by rw [first.sealedAt is]; exact is)).trans (first.sealedAt is)
  final is := (second.final (by rw [first.final is]; exact is)).trans (first.final is)
  dispatch fingerprint is := second.dispatch fingerprint (first.dispatch fingerprint is)

theorem Later.trans (first : Later a b) (second : Later b c) : Later a c where
  batches x mem := by
    obtain ⟨y,there,follows⟩ := first.batches x mem
    obtain ⟨z,here,more⟩ := second.batches y there
    exact ⟨z,here,follows.trans more⟩
  items := first.items.trans second.items
  sealedItems x mem is := by
    obtain ⟨y,there,follows⟩ := first.batches x mem
    have same := second.sealedItems y there (by rw [follows.sealedAt is]; exact is)
    rw [follows.id] at same
    exact same.trans (first.sealedItems x mem is)

theorem Quiet.refl (db : Db) : Quiet db db := ⟨.refl db,fun b mem => ⟨b,mem,rfl,rfl⟩⟩

theorem Quiet.trans (first : Quiet a b) (second : Quiet b c) : Quiet a c where
  later := first.later.trans second.later
  statuses x mem := by
    obtain ⟨y,there,named,same⟩ := first.statuses x mem
    obtain ⟨z,here,named',same'⟩ := second.statuses y there
    exact ⟨z,here,named'.trans named,same'.trans same⟩

structure Gentle (b c : Batch) : Prop where
  follows : Follows b c
  opens : c.isOpen = true → b.isOpen = true
  attempts : c.attempts ≤ 3
  published : b.recipient = b.dispatch.map (·.mail.to_) → c.recipient = c.dispatch.map (·.mail.to_)
  worked : (b.status = .processing → b.sealedAt.isSome = true) → c.status = .processing → c.sealedAt.isSome = true

section
variable {db after : Db} {condition : Batch → Bool} {change : Batch → Batch}

theorem mem_update (mem : c ∈ (db.update condition change).batches) : ∃ b ∈ db.batches, (condition b ∧ c = change b) ∨ (condition b = false ∧ c = b) := by
  obtain ⟨b,there,rfl⟩ := mem_map.mp mem
  refine ⟨b,there,?_⟩
  split
  · rename_i met
    exact .inl ⟨met,rfl⟩
  rename_i unmet
  exact .inr ⟨by simpa using unmet,rfl⟩

section
variable (core : Core db) (gentle : ∀ b ∈ db.batches, condition b → Gentle b (change b))
include core gentle

theorem update_gentle : ∀ c ∈ (db.update condition change).batches, ∃ b ∈ db.batches, Gentle b c ∧ c = if condition b then change b else b := by
  intro c mem
  obtain ⟨b,there,⟨met,rfl⟩ | ⟨unmet,rfl⟩⟩ := mem_update mem
  · exact ⟨b,there,gentle b there met,by rw [met]; rfl⟩
  exact ⟨c,there,⟨.refl c,fun is => is,core.attempts c there,fun is => is,fun is => is⟩,by rw [unmet]; rfl⟩

theorem update_core : Core (db.update condition change) := by
  have back := update_gentle core gentle
  refine ⟨core.rows,?_,core.items,core.limit,fun b left c right openLeft openRight lane => ?_,fun c mem => ?_,fun c mem => ?_, fun c mem => ?_⟩
  · have same : (db.update condition change).batches.map Batch.id = db.batches.map Batch.id := by
      rw [Db.update,map_map]
      refine map_congr_left fun b mem => ?_
      show (if condition b then change b else b).id = b.id
      split
      · rename_i met
        exact (gentle b mem met).follows.id
      rfl
    rw [Keyed,same]
    exact core.batches
  · obtain ⟨x,there,left_,isLeft⟩ := back b left
    obtain ⟨y,here,right_,isRight⟩ := back c right
    have equal := core.single x there y here (left_.opens openLeft) (right_.opens openRight) (left_.follows.lane.symm.trans (lane.trans right_.follows.lane))
    rw [isLeft,isRight,equal]
  · obtain ⟨b,_,kept,_⟩ := back c mem
    exact kept.attempts
  · obtain ⟨b,there,kept,_⟩ := back c mem
    exact kept.published (core.published b there)
  obtain ⟨b,there,kept,_⟩ := back c mem
  exact kept.worked (core.worked b there)
end

section
variable (gentle : ∀ b ∈ db.batches, condition b → Gentle b (change b))
include gentle

theorem update_later : Later db (db.update condition change) := by
  refine ⟨fun b mem => ⟨if condition b then change b else b,mem_map_of_mem mem,?_⟩,prefix_refl _,fun _ _ _ => rfl⟩
  split
  · rename_i met
    exact (gentle b mem met).follows
  exact .refl b

theorem update_quiet (same : ∀ b, (change b).status = b.status) : Quiet db (db.update condition change) := by
  refine ⟨update_later gentle,fun b mem => ⟨if condition b then change b else b,mem_map_of_mem mem,?_⟩⟩
  split
  · rename_i met
    exact ⟨(gentle b mem met).follows.id,same b⟩
  exact ⟨rfl,rfl⟩
end

theorem updateBatches_some (done : updateBatches test change db changes = some (after,counted)) :
    after = db.update (test db) change ∧ counted = db.batches.countP (test db) := by
  cases done
  exact ⟨rfl,rfl⟩
end

variable {now o token id changes counted : Nat} {db after : Db} {f : Facts}

theorem sealFull_gentle (core : Core db) (mem : b ∈ db.batches) (isOpen : b.isOpen) :
    Gentle b { b with sealedAt := some now, revision := b.revision + 1 } where
  follows := by
    refine ⟨rfl,rfl,fun is => ?_,fun _ => rfl,fun _ is => is⟩
    simp only [Batch.isOpen,Bool.and_eq_true,decide_eq_true_eq] at isOpen
    rw [isOpen.2] at is
    cases is
  opens := fun _ => isOpen
  attempts := core.attempts b mem
  published := fun is => is
  worked := fun _ _ => rfl

theorem postpone_gentle (core : Core db) (mem : b ∈ db.batches) :
    Gentle b { b with eligibleAt := now + minutes 5, revision := b.revision + 1 } where
  follows := ⟨rfl,rfl,fun _ => rfl,fun _ => rfl,fun _ is => is⟩
  opens := fun is => is
  attempts := core.attempts b mem
  published := fun is => is
  worked := fun is => is

theorem sealFull_valid (valid : Valid db) (done : sealFull facts now o db changes = some (after,counted)) : Valid after ∧ Quiet db after := by
  obtain ⟨rfl,_⟩ := updateBatches_some done
  have gentle : ∀ b ∈ db.batches, ((target facts o db).any fun f => b.isOpen && b.lane = f.lane && 50 ≤ (db.itemsOf b.id).length) →
      Gentle b { b with sealedAt := some now, revision := b.revision + 1 } := fun b mem met => by
    obtain ⟨f,_,chosen⟩ := (Option.any_eq_true _ _).mp met
    simp only [Bool.and_eq_true] at chosen
    exact sealFull_gentle valid.core mem chosen.1.1
  exact ⟨⟨update_core valid.core gentle,valid.staged⟩,update_quiet gentle fun _ => rfl⟩

theorem openBatch_valid (valid : Valid db) (done : openBatch facts now o id db changes = some (after,counted)) : Valid after ∧ Quiet db after := by
  unfold openBatch at done
  split at done
  · cases done
    exact ⟨valid,.refl _⟩
  rename_i f found
  split at done
  · cases done
    exact ⟨valid,.refl _⟩
  rename_i closed
  split at done
  · cases done
  rename_i fresh
  cases done
  have core := valid.core
  have apart : ∀ b ∈ db.batches, b.isOpen → b.lane ≠ f.lane := fun b mem isOpen same =>
    closed (any_eq_true.mpr ⟨b,mem,by rw [isOpen,same]; exact decide_eq_true rfl⟩)
  refine ⟨⟨⟨core.rows,core.batches.add fun b mem same => fresh (any_eq_true.mpr ⟨b,mem,decide_eq_true same⟩),core.items,core.limit,
    fun b left c right openLeft openRight lane => ?_,fun b mem => ?_,fun b mem => ?_,fun b mem => ?_⟩,valid.staged⟩,?_⟩
  · rcases mem_snoc.mp left with old | rfl
    · rcases mem_append.mp right with old' | new'
      · exact core.single b old c old' openLeft openRight lane
      · cases mem_singleton.mp new'
        exact absurd lane (apart b old openLeft)
    · rcases mem_append.mp right with old' | new'
      · exact absurd lane.symm (apart c old' openRight)
      · exact (mem_singleton.mp new').symm
  · rcases mem_snoc.mp mem with old | rfl
    · exact core.attempts b old
    · exact Nat.zero_le 3
  · rcases mem_snoc.mp mem with old | rfl
    · exact core.published b old
    · rfl
  · rcases mem_snoc.mp mem with old | rfl
    · exact core.worked b old
    · exact nofun
  exact ⟨⟨fun b mem => ⟨b,mem_append_left _ mem,.refl b⟩,prefix_refl _,fun _ _ _ => rfl⟩, fun b mem => ⟨b,mem_append_left _ mem,rfl,rfl⟩⟩

theorem insertItem_half (half : Half o db) (mem : b ∈ db.batches) (done : insertItem o token f db b = some after) :
    Half o after ∧ Quiet db after ∧ after.batches = db.batches := by
  obtain ⟨met,is⟩ := Option.ite_none_right_eq_some.mp done
  cases is
  simp only [Bool.and_eq_true,Bool.not_eq_true',decide_eq_true_eq] at met
  obtain ⟨⟨⟨⟨⟨fresh,isOpen⟩,_⟩,_⟩,row⟩,few⟩ := met
  have core := half.core
  have absent : ∀ item ∈ db.items, item.outbox ≠ o := fun item there same => by
    rw [Db.staged,any_eq_false] at fresh
    exact fresh item there (decide_eq_true same)
  obtain ⟨found,isRow,facts⟩ := (Option.any_eq_true _ _).mp row
  obtain ⟨listed,named⟩ := find_some isRow
  simp only [Bool.and_eq_true] at facts
  have split : ∀ x, ({ db with items := db.items++[⟨o,b.id,f.grantVersion,token⟩] } : Db).itemsOf x =
      db.itemsOf x++if b.id = x then [⟨o,b.id,f.grantVersion,token⟩] else [] := fun x => by
    show (db.items++[_]).filter _ = _
    rw [filter_append]
    congr 1
    by_cases same : b.id = x
    · rw [if_pos same]
      exact filter_eq_self.mpr fun item there => by
        cases mem_singleton.mp there
        exact decide_eq_true same
    rw [if_neg same]
    exact filter_eq_nil_iff.mpr fun item there is => by
      cases mem_singleton.mp there
      exact same (of_decide_eq_true is)
  refine ⟨⟨⟨core.rows,core.batches,core.items.add fun item there => absent item there,fun x => ?_,core.single,core.attempts,core.published,core.worked⟩,
    fun item there => ?_⟩,⟨⟨fun c there => ⟨c,there,.refl c⟩,prefix_append _ _,fun c there isSealed => ?_⟩,fun c there => ⟨c,there,rfl,rfl⟩⟩,rfl⟩
  · rw [split,length_append]
    by_cases same : b.id = x
    · rw [if_pos same]
      rw [same] at few
      exact few
    rw [if_neg same]
    exact core.limit x
  · rcases mem_snoc.mp there with old | rfl
    · exact half.staged item old
    · exact .inl ⟨rfl,found,listed,named,facts.2⟩
  have other : b.id ≠ c.id := fun same => by
    cases core.batches.unique mem there same
    simp only [Batch.isOpen,Bool.and_eq_true,decide_eq_true_eq] at isOpen
    rw [isOpen.2] at isSealed
    cases isSealed
  rw [split,if_neg other,append_nil]

theorem addItem_half (valid : Valid db) (done : addItem facts o token db changes = some (after,counted)) : Half o after ∧ Quiet db after := by
  have start : Half o db := ⟨valid.core,fun item mem => .inr (valid.staged item mem)⟩
  unfold addItem at done
  split at done
  · cases done
    exact ⟨start,.refl _⟩
  rename_i f found
  obtain ⟨last,folded,same⟩ := Option.map_eq_some_iff.mp done
  cases same
  have listed : ∀ b ∈ db.batches.filter (fun b => b.isOpen && b.lane = f.lane), b ∈ db.batches := fun b mem => (mem_filter.mp mem).1
  generalize db.batches.filter (fun b => b.isOpen && b.lane = f.lane) = joined at folded listed
  -- The rows joined are inserted one by one; the batches stay those that were joined.
  have each : ∀ (joined : List Batch) (current last : Db), Half o current → Quiet db current → current.batches = db.batches →
      (∀ b ∈ joined, b ∈ db.batches) → joined.foldlM (insertItem o token f) current = some last → Half o last ∧ Quiet db last := by
    intro joined
    induction joined with
    | nil =>
      intro _ _ half later _ _ ends
      cases ends
      exact ⟨half,later⟩
    | cons b _ ih =>
      intro _ last half later same among ran
      obtain ⟨middle,first,others⟩ := Option.bind_eq_some_iff.mp ran
      obtain ⟨half',later',same'⟩ := insertItem_half half (by rw [same]; exact among b mem_cons_self) first
      exact ih middle last half' (later.trans later') (same'.trans same) (fun c mem => among c (mem_cons_of_mem _ mem)) others
  exact each joined db _ start (.refl _) rfl listed folded

theorem postpone_half (half : Half o db) (done : postpone now token db changes = some (after,counted)) : Half o after ∧ Quiet db after := by
  obtain ⟨rfl,_⟩ := updateBatches_some done
  have gentle : ∀ b ∈ db.batches, (b.isOpen && db.items.any fun item => item.token = token && item.batch = b.id) →
      Gentle b { b with eligibleAt := now + minutes 5, revision := b.revision + 1 } := fun b mem _ => postpone_gentle half.core mem
  exact ⟨⟨update_core half.core gentle,half.staged⟩,update_quiet gentle fun _ => rfl⟩

theorem suppressRow_valid (half : Half o db) (done : suppressRow o db changes = some (after,counted)) : Valid after ∧ Quiet db after := by
  cases done
  have core := half.core
  refine ⟨⟨⟨?_,core.batches,core.items,core.limit,core.single,core.attempts,core.published,core.worked⟩,fun item mem => ?_⟩,
    ⟨⟨fun b mem => ⟨b,mem,.refl b⟩,prefix_refl _,fun _ _ _ => rfl⟩,fun b mem => ⟨b,mem,rfl,rfl⟩⟩⟩
  · show ((db.outbox.map _).map Outbox.id).Nodup
    rw [map_map]
    have same : db.outbox.map (Outbox.id ∘ fun row => if (row.id = o && row.untouched && db.staged row.id) = true then { row with status := .suppressed } else row) =
        db.outbox.map Outbox.id := map_congr_left fun row _ => by
      show (if _ then _ else row : Outbox).id = row.id
      split <;> rfl
    rw [same]
    exact core.rows
  rcases half.staged item mem with ⟨own,row,listed,named,free⟩ | ⟨row,listed,named,suppressed⟩
  · refine ⟨_,mem_map_of_mem listed,?_,?_⟩
    · split
      · exact named.trans own.symm
      · exact named.trans own.symm
    · have taken : (row.id = o && row.untouched && db.staged row.id) := by
        rw [decide_eq_true named,free,named]
        exact any_eq_true.mpr ⟨item,mem,decide_eq_true own⟩
      rw [if_pos taken]
  · refine ⟨_,mem_map_of_mem listed,?_,?_⟩
    · split <;> exact named
    · split
      · rfl
      · exact suppressed

theorem stage_valid (valid : Valid db) (done : batch (stage facts now o token id) db changes = some (after,counts)) : Valid after ∧ Quiet db after := by
  obtain ⟨a,_,_,first,rest,_⟩ := batch_cons.mp done
  obtain ⟨b,_,_,second,rest,_⟩ := batch_cons.mp rest
  obtain ⟨c,_,_,third,rest,_⟩ := batch_cons.mp rest
  obtain ⟨d,_,_,fourth,rest,_⟩ := batch_cons.mp rest
  obtain ⟨e,_,_,fifth,rest,_⟩ := batch_cons.mp rest
  cases rest
  obtain ⟨valid,one⟩ := sealFull_valid valid first
  obtain ⟨valid,two⟩ := openBatch_valid valid second
  obtain ⟨half,three⟩ := addItem_half valid third
  obtain ⟨half,four⟩ := postpone_half half fourth
  obtain ⟨valid,five⟩ := suppressRow_valid half fifth
  exact ⟨valid,one.trans (two.trans (three.trans (four.trans five)))⟩

theorem adoption_valid (valid : Valid db) (done : batch (adoption facts now drawn ids) db changes = some (after,counts)) : Valid after ∧ Quiet db after := by
  induction ids generalizing db drawn changes counts with
  | nil =>
    cases done
    exact ⟨valid,.refl _⟩
  | cons _ _ ih =>
    obtain ⟨_,_,_,_,first,others,_⟩ := batch_append done
    obtain ⟨valid,one⟩ := stage_valid valid first
    obtain ⟨valid,more⟩ := ih valid others
    exact ⟨valid,one.trans more⟩

theorem insertOutbox_valid (valid : Valid db) (done : insertOutbox o granted db changes = some (after,counted)) : Valid after ∧ Quiet db after := by
  obtain ⟨fresh,is⟩ := Option.ite_none_left_eq_some.mp done
  cases is
  have core := valid.core
  refine ⟨⟨⟨core.rows.add fun row mem same => fresh (any_eq_true.mpr ⟨row,mem,decide_eq_true same⟩),core.batches,core.items,core.limit,
    core.single,core.attempts,core.published,core.worked⟩,fun item mem => ?_⟩,⟨⟨fun b mem => ⟨b,mem,.refl b⟩,prefix_refl _,fun _ _ _ => rfl⟩,fun b mem => ⟨b,mem,rfl,rfl⟩⟩⟩
  obtain ⟨row,listed,named,suppressed⟩ := valid.staged item mem
  exact ⟨row,mem_append_left _ listed,named,suppressed⟩

theorem intent_valid (valid : Valid db) :
    Valid (commit (intentBatch o granted staged facts now drawn) db) ∧ Quiet db (commit (intentBatch o granted staged facts now drawn) db) := by
  cases done : batch (intentBatch o granted staged facts now drawn) db 0 with
  | none =>
    rw [commit_none done]
    exact ⟨valid,.refl _⟩
  | some =>
    rw [commit_some done]
    obtain ⟨_,_,_,first,rest,_⟩ := batch_cons.mp done
    obtain ⟨valid,one⟩ := insertOutbox_valid valid first
    cases staged with
    | false =>
      cases rest
      exact ⟨valid,one⟩
    | true =>
      obtain ⟨valid,more⟩ := stage_valid valid rest
      exact ⟨valid,one.trans more⟩
end LedgeTopOps.PortalNotices

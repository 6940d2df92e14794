import LedgeTopOps.SopDocuments

namespace LedgeTopOps.SopDocuments
open List SqlBatches KeyedRows
open Option (bind_eq_some_iff map_eq_some_iff)

structure Pointed (db : Db) (d : Document) : Prop where
  draft : ∀ p, d.draft = some p → db.holds p d.id = true
  published : ∀ p, d.published = some p → ∃ r ∈ db.revisions, ∃ q ∈ db.revisions, r.id = p ∧ r.sop = d.id ∧ r.kind = .published ∧
    r.parent = some q.id ∧ q.sop = d.id ∧ r.content = q.content
  drafted : d.status = .draft → d.draft.isSome = true
  archived : d.status = .archived → d.draft = none
  shown : d.status = .published → d.published.isSome = true

structure Valid (db : Db) : Prop where
  documents : Keyed Document.id db.documents
  revisions : Keyed Revision.id db.revisions
  owned : ∀ r ∈ db.revisions, ∃ d ∈ db.documents, d.id = r.sop
  numbered : ∀ d ∈ db.documents, db.numbers d.id = range' 1 d.version
  parents : ∀ r ∈ db.revisions, ∀ p, r.parent = some p → ∃ q ∈ db.revisions, q.id = p ∧ q.sop = r.sop ∧ q.number < r.number
  pointed : ∀ d ∈ db.documents, Pointed db d

section
variable {db : Db} {sop id : Id}

theorem document_some (found : db.document sop = some d) : d ∈ db.documents ∧ d.id = sop := find_some found
theorem revision_some (found : db.revision id = some r) : r ∈ db.revisions ∧ r.id = id := find_some found

theorem current_some (found : db.current sop expected = some d) : d ∈ db.documents ∧ d.id = sop ∧ d.version = expected := by
  refine ⟨mem_of_find?_eq_some found,?_⟩
  simpa using find?_some found

theorem holds_iff : db.holds id sop ↔ ∃ r ∈ db.revisions, r.id = id ∧ r.sop = sop := by
  simp [Db.holds]

theorem foldr_max_range (n : Nat) : (range' 1 n).foldr max 0 = n := by
  have upper : ∀ (rest : List Nat) (most : Nat), (∀ x ∈ rest, x ≤ most) → rest.foldr max 0 ≤ most := by
    intro rest _ bounded
    induction rest with
    | nil => exact Nat.zero_le _
    | cons x _ ih => exact Nat.max_le.mpr ⟨bounded x (by simp),ih fun y mem => bounded y (by simp [mem])⟩
  have lower : ∀ (rest : List Nat) (x : Nat), x ∈ rest → x ≤ rest.foldr max 0 := by
    intro rest x mem
    induction rest with
    | nil => cases mem
    | cons _ _ ih =>
      rcases mem_cons.mp mem with rfl | deeper
      · exact Nat.le_max_left _ _
      exact Nat.le_trans (ih deeper) (Nat.le_max_right _ _)
  refine Nat.le_antisymm (upper _ _ fun x mem => ?_) ?_
  · have bounds := mem_range'_1.mp mem
    omega
  cases n with
  | zero => exact Nat.zero_le _
  | succ => exact lower _ _ (mem_range'_1.mpr ⟨by omega,by omega⟩)

theorem Valid.nextNumber (valid : Valid db) (here : d ∈ db.documents) : db.nextNumber d.id = d.version + 1 := by
  rw [Db.nextNumber,valid.numbered d here,foldr_max_range]

theorem Valid.number_le (valid : Valid db) (here : d ∈ db.documents) (mem : r ∈ db.revisions) (own : r.sop = d.id) : r.number ≤ d.version := by
  have listed : r.number ∈ db.numbers d.id := mem_map_of_mem (mem_filter.mpr ⟨mem,decide_eq_true own⟩)
  rw [valid.numbered d here] at listed
  have bounds := mem_range'_1.mp listed
  omega
end

section
variable {db after : Db} {d : Document} {row : Revision} {change : Document → Document} {audits : List Audit}

theorem holds_later (ahead : db.revisions <+: after.revisions) {id sop : Id} (held : db.holds id sop) : after.holds id sop := by
  obtain ⟨r,mem,named⟩ := holds_iff.mp held
  exact holds_iff.mpr ⟨r,ahead.subset mem,named⟩

theorem Pointed.later (pointed : Pointed db d) (ahead : db.revisions <+: after.revisions) : Pointed after d where
  draft p is := holds_later ahead (pointed.draft p is)
  published p is := by
    obtain ⟨r,mem,q,parent,facts⟩ := pointed.published p is
    exact ⟨r,ahead.subset mem,q,ahead.subset parent,facts⟩
  drafted := pointed.drafted
  archived := pointed.archived
  shown := pointed.shown

theorem numbers_append (db : Db) (more : after.revisions = db.revisions++[row]) (sop : Id) : after.numbers sop =
    db.numbers sop++if row.sop = sop then [row.number] else [] := by
  unfold Db.numbers
  rw [more,filter_append,map_append]
  congr 1
  by_cases same : row.sop = sop
  · simp [same]
  simp [same]

theorem Valid.advance (valid : Valid db) (here : d ∈ db.documents) (fresh : ∀ r ∈ db.revisions, r.id ≠ row.id)
    (own : row.sop = d.id) (number : row.number = d.version + 1) (parent : ∀ p, row.parent = some p → ∃ q ∈ db.revisions, q.id = p ∧ q.sop = d.id)
    (named : (change d).id = d.id) (version : (change d).version = d.version + 1)
    (pointed : Pointed ⟨amend Document.id db.documents d.id change,db.revisions++[row],audits⟩ (change d)) :
    Valid ⟨amend Document.id db.documents d.id change,db.revisions++[row],audits⟩ := by
  have only : ∀ old ∈ db.documents, old.id = d.id → old = d := fun old mem same => valid.documents.unique mem here same
  have ahead : db.revisions <+: db.revisions++[row] := prefix_append ..
  have moved : ∀ x ∈ amend Document.id db.documents d.id change, (x ∈ db.documents ∧ x.id ≠ d.id) ∨ x = change d := fun x mem => by
    rcases mem_amend.mp mem with kept | ⟨old,there,same,rfl⟩
    · exact .inl kept
    exact .inr (by rw [only old there same])
  have there : change d ∈ amend Document.id db.documents d.id change := mem_amend.mpr (.inr ⟨d,here,rfl,rfl⟩)
  refine ⟨valid.documents.amend change fun old mem same => ?_,valid.revisions.add fresh,fun r mem => ?_,fun x mem => ?_, fun r mem p is => ?_,fun x mem => ?_⟩
  · rw [only old mem same,named]
  · rcases mem_snoc.mp mem with old | rfl
    · obtain ⟨x,listed,same⟩ := valid.owned r old
      by_cases target : x.id = d.id
      · exact ⟨change d,there,named.trans (target.symm.trans same)⟩
      exact ⟨x,mem_amend.mpr (.inl ⟨listed,target⟩),same⟩
    · exact ⟨change d,there,named.trans own.symm⟩
  · rcases moved x mem with ⟨old,apart⟩ | rfl
    · have other : row.sop ≠ x.id := fun same => apart (same.symm.trans own)
      rw [numbers_append db rfl x.id,if_neg other,append_nil]
      exact valid.numbered x old
    · rw [numbers_append db rfl (change d).id,named,if_pos own,valid.numbered d here,version,number,
        range'_1_concat]
      congr 2
      omega
  · rcases mem_snoc.mp mem with old | rfl
    · obtain ⟨q,listed,facts⟩ := valid.parents r old p is
      exact ⟨q,ahead.subset listed,facts⟩
    · obtain ⟨q,listed,same,belongs⟩ := parent p is
      have most := valid.number_le here listed belongs
      exact ⟨q,ahead.subset listed,same,belongs.trans own.symm,by omega⟩
  rcases moved x mem with ⟨old,_⟩ | rfl
  · exact (valid.pointed x old).later ahead
  · exact pointed
end

structure Plan.Sane (plan : Plan) (m : Mutation) (uuid : Id) (db : Db) : Prop where
  row : ∀ row, plan.select db = some row → (db.current m.sop m.expected).isSome = true ∧ row.id = uuid ∧ row.sop = m.sop
  quiet : plan.noted db = false

section
variable {plan : Plan} {m : Mutation} {uuid : Id} {db after : Db} {counts : List Nat}

theorem plan_batch (sane : plan.Sane m uuid db) (fresh : ∀ r ∈ db.revisions, r.id ≠ uuid)
    (done : batch (plan.statements m uuid) db 0 = some (after,counts)) : (counts[1]? = some 0 ∧ after = db) ∨
      (counts[1]? = some 1 ∧ ∃ d row audits, db.current m.sop m.expected = some d ∧ plan.select db = some row ∧
        after = ⟨amend Document.id db.documents m.sop plan.change,db.revisions++[row],audits⟩) := by
  obtain ⟨t,_,_,inserted,rest,rfl⟩ := batch_cons.mp done
  obtain ⟨u,second,_,updated,last,rfl⟩ := batch_cons.mp rest
  obtain ⟨v,_,_,noted,finish,rfl⟩ := batch_cons.mp last
  cases finish
  unfold insertRevision at inserted
  cases selected : plan.select db with
  | none =>
    rw [selected] at inserted
    cases inserted
    have absent : db.holds uuid m.sop = false := by
      cases held : db.holds uuid m.sop with
      | false => rfl
      | true =>
        obtain ⟨r,mem,same,_⟩ := holds_iff.mp held
        exact absurd same (fresh r mem)
    have idle : u = db ∧ second = 0 := by
      unfold updateDocument at updated
      rw [absent] at updated
      split at updated
      · cases updated; exact ⟨rfl,rfl⟩
      cases updated; exact ⟨rfl,rfl⟩
    obtain ⟨rfl,rfl⟩ := idle
    rcases guarded_some noted with ⟨met,_,_⟩ | ⟨_,rfl,_⟩
    · rw [sane.quiet] at met
      cases met
    exact .inl ⟨rfl,rfl⟩
  | some row =>
    obtain ⟨current,named,own⟩ := sane.row row selected
    obtain ⟨d,is⟩ := Option.isSome_iff_exists.mp current
    rw [selected] at inserted
    dsimp only at inserted
    split at inserted
    · cases inserted
      have held : Db.holds { db with revisions := db.revisions++[row] } uuid m.sop :=
        holds_iff.mpr ⟨row,mem_append_right _ (.head _),named,own⟩
      unfold updateDocument at updated
      rw [show Db.current { db with revisions := db.revisions++[row] } m.sop m.expected = some d from is] at updated
      dsimp only at updated
      rw [if_pos held] at updated
      split at updated
      · cases updated
        rcases guarded_some noted with ⟨_,made,_⟩ | ⟨_,rfl,_⟩
        · cases made
          exact .inr ⟨rfl,d,row,_,is,rfl,rfl⟩
        exact .inr ⟨rfl,d,row,_,is,rfl,rfl⟩
      cases updated
    cases inserted
end

section
variable {m : Mutation} {uuid : Id} {db : Db}

section
variable (valid : Valid db) (fresh : ∀ r ∈ db.revisions, r.id ≠ uuid) (expected : Nat)
include valid fresh expected

theorem undrafted : (db.current m.sop expected).any (·.draft = some uuid) = false := by
  cases is : db.current m.sop expected with
  | none => rfl
  | some d =>
    obtain ⟨here,_⟩ := current_some is
    refine decide_eq_false fun drafted => ?_
    obtain ⟨r,mem,same,_⟩ := holds_iff.mp ((valid.pointed d here).draft uuid drafted)
    exact fresh r mem same

theorem unpublished : (db.current m.sop expected).any (·.published = some uuid) = false := by
  cases is : db.current m.sop expected with
  | none => rfl
  | some d =>
    obtain ⟨here,_⟩ := current_some is
    refine decide_eq_false fun shown => ?_
    obtain ⟨r,mem,_,_,same,_⟩ := (valid.pointed d here).published uuid shown
    exact fresh r mem same
end

theorem unheld (fresh : ∀ r ∈ db.revisions, r.id ≠ uuid) (sop : Id) : db.holds uuid sop = false := by
  cases held : db.holds uuid sop with
  | false => rfl
  | true =>
    obtain ⟨r,mem,same,_⟩ := holds_iff.mp held
    exact absurd same (fresh r mem)

theorem copied_row (selected : copied m uuid kind source db = some row) :
    ∃ d r, db.current m.sop m.expected = some d ∧ r ∈ db.revisions ∧ r.id = source ∧ r.sop = d.id ∧
      row = ⟨uuid,r.sop,db.nextNumber r.sop,some r.id,kind,r.content,m.principal⟩ := by
  obtain ⟨d,is,found⟩ := bind_eq_some_iff.mp selected
  obtain ⟨r,kept,rfl⟩ := map_eq_some_iff.mp found
  obtain ⟨there,own⟩ := Option.filter_eq_some_iff.mp kept
  obtain ⟨mem,same⟩ := revision_some there
  exact ⟨d,r,is,mem,same,of_decide_eq_true own,rfl⟩
end

def Mutation.allows (m : Mutation) (read : Document) : Prop := match m.change with
  | .draft _ => read.status ≠ .archived
  | _ => True

structure Later (db after : Db) : Prop where
  revisions : db.revisions <+: after.revisions
  documents : ∀ d ∈ db.documents, ∃ e ∈ after.documents, e.id = d.id ∧ d.version ≤ e.version ∧ (d.version = e.version → e = d)

theorem Later.rfl : Later db db := ⟨prefix_refl _,fun d mem => ⟨d,mem,Eq.refl _,Nat.le_refl _,fun _ => Eq.refl _⟩⟩

section
variable {render : String → Rendered} {m : Mutation} {uuid : Id} {read d : Document} {row : Revision} {db : Db} {plan : Plan}

theorem plan_sane (valid : Valid db) (fresh : ∀ r ∈ db.revisions, r.id ≠ uuid) (planned : m.plan render uuid read = some plan) : plan.Sane m uuid db := by
  have copy : ∀ {kind : ChangeKind} {source : Id} {row : Revision}, copied m uuid kind source db = some row →
      (db.current m.sop m.expected).isSome ∧ row.id = uuid ∧ row.sop = m.sop := fun selected => by
    obtain ⟨d,r,is,_,_,own,rfl⟩ := copied_row selected
    exact ⟨by rw [is]; rfl,Eq.refl _,own.trans (current_some is).2.1⟩
  unfold Mutation.plan at planned
  split at planned
  · cases planned
    refine ⟨fun row selected => ?_,undrafted valid fresh _⟩
    obtain ⟨d,is,rfl⟩ := map_eq_some_iff.mp selected
    exact ⟨by rw [is]; rfl,Eq.refl _,(current_some is).2.1⟩
  · cases planned
    refine ⟨fun row selected => ?_,unpublished valid fresh _⟩
    obtain ⟨d,is,found⟩ := bind_eq_some_iff.mp selected
    obtain ⟨r,there,rfl⟩ := map_eq_some_iff.mp found
    obtain ⟨p,drafted,found⟩ := bind_eq_some_iff.mp there
    obtain ⟨here,named,_⟩ := current_some is
    obtain ⟨mem,same⟩ := revision_some found
    obtain ⟨q,listed,pointed,own⟩ := holds_iff.mp ((valid.pointed d here).draft p drafted)
    have equal : q = r := valid.revisions.unique listed mem (pointed.trans same.symm)
    exact ⟨by rw [is]; rfl,Eq.refl _,by rw [←named,←own,equal]⟩
  · obtain ⟨_,_,rfl⟩ := map_eq_some_iff.mp planned
    exact ⟨fun row selected => copy selected,by simp [archivePlan,unheld fresh]⟩
  cases planned
  exact ⟨fun row selected => copy selected,undrafted valid fresh _⟩

theorem pointer_own (valid : Valid db) (here : d ∈ db.documents) (points : (d.draft <|> d.published) = some p) :
    ∃ q ∈ db.revisions, q.id = p ∧ q.sop = d.id := by
  cases drafted : d.draft with
  | some =>
    rw [drafted] at points
    cases points
    exact holds_iff.mp ((valid.pointed d here).draft p drafted)
  | none =>
    rw [drafted] at points
    obtain ⟨r,mem,_,_,same,own,_⟩ := (valid.pointed d here).published p points
    exact ⟨r,mem,same,own⟩

theorem plan_advance (audits : List Audit) (valid : Valid db) (planned : m.plan render uuid read = some plan) (allowed : m.allows read)
    (is : db.current m.sop m.expected = some read) (selected : plan.select db = some row) (same : row.id = uuid) (own : row.sop = m.sop) :
    row.number = read.version + 1 ∧ (∀ p, row.parent = some p → ∃ q ∈ db.revisions, q.id = p ∧ q.sop = read.id) ∧
      (plan.change read).id = read.id ∧ (plan.change read).version = read.version + 1 ∧
      Pointed ⟨amend Document.id db.documents read.id plan.change,db.revisions++[row],audits⟩ (plan.change read) := by
  obtain ⟨here,named,_⟩ := current_some is
  have pointed := valid.pointed read here
  have ahead : db.revisions <+: db.revisions++[row] := prefix_append ..
  have mine : row ∈ db.revisions++[row] := mem_append_right _ (.head _)
  have number : db.nextNumber row.sop = read.version + 1 := by rw [own,←named]; exact valid.nextNumber here
  have held : ∀ p, some uuid = some p → Db.holds ⟨amend Document.id db.documents read.id plan.change,db.revisions++[row],audits⟩ p read.id :=
    fun p is => by
      cases is
      exact holds_iff.mpr ⟨row,mine,same,own.trans named.symm⟩
  have shown : ∀ p, read.published = some p → ∃ r ∈ db.revisions++[row], ∃ q ∈ db.revisions++[row], r.id = p ∧ r.sop = read.id ∧
      r.kind = .published ∧ r.parent = some q.id ∧ q.sop = read.id ∧ r.content = q.content := fun p is => by
    obtain ⟨r,mem,q,parent,facts⟩ := pointed.published p is
    exact ⟨r,ahead.subset mem,q,ahead.subset parent,facts⟩
  unfold Mutation.plan at planned
  unfold Mutation.allows at allowed
  split at planned
  · rename_i input changes
    rw [changes] at allowed
    cases planned
    obtain ⟨d,current,rfl⟩ := map_eq_some_iff.mp selected
    cases is.symm.trans current
    exact ⟨number,fun p points => pointer_own valid here points,Eq.refl _,Eq.refl _,held,shown,fun _ => Eq.refl _,
      fun archived => absurd archived allowed,pointed.shown⟩
  · cases planned
    obtain ⟨d,current,found⟩ := bind_eq_some_iff.mp selected
    cases is.symm.trans current
    obtain ⟨r,there,rfl⟩ := map_eq_some_iff.mp found
    obtain ⟨p,_,found⟩ := bind_eq_some_iff.mp there
    obtain ⟨mem,_⟩ := revision_some found
    have belongs : r.sop = read.id := own.trans named.symm
    refine ⟨number,fun p is => ?_,Eq.refl _,Eq.refl _,nofun,fun p is => ?_,nofun,nofun,fun _ => Eq.refl _⟩
    · cases is
      exact ⟨r,mem,Eq.refl _,belongs⟩
    cases is
    exact ⟨_,mine,r,ahead.subset mem,same,belongs,Eq.refl _,Eq.refl _,belongs,Eq.refl _⟩
  · obtain ⟨_,_,rfl⟩ := map_eq_some_iff.mp planned
    obtain ⟨d,r,current,mem,_,belongs,rfl⟩ := copied_row selected
    cases is.symm.trans current
    refine ⟨number,fun p is => ?_,Eq.refl _,Eq.refl _,nofun,shown,nofun,fun _ => Eq.refl _,nofun⟩
    cases is
    exact ⟨r,mem,Eq.refl _,belongs⟩
  cases planned
  obtain ⟨d,r,current,mem,_,belongs,rfl⟩ := copied_row selected
  cases is.symm.trans current
  refine ⟨number,fun p is => ?_,Eq.refl _,Eq.refl _,held,shown,fun _ => Eq.refl _,fun archived => ?_,fun published => ?_⟩
  · cases is
    exact ⟨r,mem,Eq.refl _,belongs⟩
  · change (if read.status = .published then Status.published else .draft) = .archived at archived
    split at archived <;> cases archived
  change (if read.status = .published then Status.published else .draft) = .published at published
  split at published
  · rename_i before
    exact pointed.shown before
  cases published

structure Wins (m : Mutation) (uuid : Id) (db after : Db) : Prop where
  valid : Valid after
  later : Later db after
  before : ∃ d ∈ db.documents, d.id = m.sop ∧ d.version = m.expected
  left : ∃ d ∈ after.documents, d.id = m.sop ∧ d.version = m.expected + 1
  wrote : ∃ row, row.id = uuid ∧ after.revisions = db.revisions++[row]

theorem mutation_batch {after : Db} (valid : Valid db) (fresh : ∀ r ∈ db.revisions, r.id ≠ uuid)
    (planned : m.plan render uuid read = some plan) (allowed : m.allows read) (settled : ∀ d, db.current m.sop m.expected = some d → d = read)
    (done : batch (plan.statements m uuid) db 0 = some (after,counts)) : (counts[1]? = some 0 ∧ after = db) ∨ (counts[1]? = some 1 ∧ Wins m uuid db after) := by
  have sane := plan_sane valid fresh planned
  rcases plan_batch sane fresh done with idle | ⟨count,d,row,audits,is,selected,rfl⟩
  · exact .inl idle
  refine .inr ⟨count,?_⟩
  cases settled d is
  obtain ⟨_,same,own⟩ := sane.row row selected
  obtain ⟨here,named,version⟩ := current_some is
  obtain ⟨number,parent,kept,grown,pointed⟩ := plan_advance audits valid planned allowed is selected same own
  subst same
  rw [←named]
  refine ⟨valid.advance here fresh (own.trans named.symm) number parent kept grown pointed,⟨prefix_append ..,fun x mem => ?_⟩,
    ⟨read,here,named,version⟩,⟨plan.change read,mem_amend.mpr (.inr ⟨read,here,Eq.refl _,Eq.refl _⟩),kept.trans named,by rw [grown,version]⟩,
    ⟨row,Eq.refl _,Eq.refl _⟩⟩
  by_cases target : x.id = read.id
  · cases valid.documents.unique mem here target
    exact ⟨plan.change read,mem_amend.mpr (.inr ⟨read,here,Eq.refl _,Eq.refl _⟩),kept,by omega,fun equal => absurd equal (by omega)⟩
  exact ⟨x,mem_amend.mpr (.inl ⟨mem,target⟩),Eq.refl _,Nat.le_refl _,fun _ => Eq.refl _⟩
end

variable {render : String → Rendered} {c : Creation} {uuid : Id} {db after : Db} {counts : List Nat}

structure Creates (uuid : Id) (db after : Db) : Prop where
  valid : Valid after
  later : Later db after
  wrote : ∃ row, row.id = uuid ∧ after.revisions = db.revisions++[row]

def Creation.drafted (c : Creation) (uuid : Id) : Document := { c.document uuid with draft := some uuid }

theorem Valid.create (audits : List Audit) (valid : Valid db) (fresh : ∀ r ∈ db.revisions, r.id ≠ uuid) (absent : ∀ d ∈ db.documents, d.id ≠ uuid) :
    Valid ⟨db.documents++[c.drafted uuid],db.revisions++[c.revision render uuid],audits⟩ := by
  have ahead : db.revisions <+: db.revisions++[c.revision render uuid] := prefix_append ..
  have none_before : db.numbers uuid = [] := by
    unfold Db.numbers
    rw [filter_eq_nil_iff.mpr fun r mem own => ?_]
    · rfl
    · obtain ⟨d,listed,same⟩ := valid.owned r mem
      exact absent d listed (same.trans (of_decide_eq_true own))
  refine ⟨valid.documents.add absent,valid.revisions.add fresh,fun r mem => ?_,fun x mem => ?_,fun r mem p is => ?_,fun x mem => ?_⟩
  · rcases mem_snoc.mp mem with old | rfl
    · obtain ⟨d,listed,same⟩ := valid.owned r old
      exact ⟨d,mem_append_left _ listed,same⟩
    · exact ⟨_,mem_append_right _ (.head _),Eq.refl _⟩
  · rcases mem_snoc.mp mem with old | rfl
    · rw [numbers_append db rfl x.id,if_neg fun same => absent x old same.symm,append_nil]
      exact valid.numbered x old
    · rw [numbers_append db rfl _]
      show (db.numbers uuid++if uuid = uuid then [1] else []) = range' 1 1
      rw [none_before,if_pos (Eq.refl _)]
      rfl
  · rcases mem_snoc.mp mem with old | rfl
    · obtain ⟨q,listed,facts⟩ := valid.parents r old p is
      exact ⟨q,ahead.subset listed,facts⟩
    · cases is
  rcases mem_snoc.mp mem with old | rfl
  · exact (valid.pointed x old).later ahead
  · refine ⟨fun p is => ?_,nofun,fun _ => Eq.refl _,nofun,nofun⟩
    cases is
    exact holds_iff.mpr ⟨_,mem_append_right _ (.head _),Eq.refl _,Eq.refl _⟩

theorem creation_batch (valid : Valid db) (fresh : ∀ r ∈ db.revisions, r.id ≠ uuid)
    (done : batch (c.statements render uuid) db 0 = some (after,counts)) : Creates uuid db after := by
  obtain ⟨t,_,_,made,rest,_⟩ := batch_cons.mp done
  obtain ⟨u,_,_,inserted,more,_⟩ := batch_cons.mp rest
  obtain ⟨v,_,_,pointed,last,_⟩ := batch_cons.mp more
  obtain ⟨w,_,_,noted,finish,_⟩ := batch_cons.mp last
  cases finish
  unfold insertDocument at made
  split at made
  · cases made
  rename_i new
  cases made
  have absent : ∀ d ∈ db.documents, d.id ≠ uuid := fun d mem same => new (any_eq_true.mpr ⟨d,mem,by simp [same]⟩)
  unfold insertRevision at inserted
  dsimp only at inserted
  split at inserted
  · cases inserted
    unfold pointDraft at pointed
    split at pointed
    · cases pointed
      rcases guarded_some noted with ⟨_,added,_⟩ | ⟨unmet,_,_⟩
      · cases added
        rw [amend,map_append,←amend,amend_absent _ absent,map_singleton]
        rw [if_pos (show (c.document uuid).id = uuid from Eq.refl _)]
        exact ⟨valid.create _ fresh absent,⟨prefix_append ..,fun d mem =>
          ⟨d,mem_append_left _ mem,Eq.refl _,Nat.le_refl _,fun _ => Eq.refl _⟩⟩,⟨_,Eq.refl _,Eq.refl _⟩⟩
      cases unmet
    cases pointed
  cases inserted
end LedgeTopOps.SopDocuments

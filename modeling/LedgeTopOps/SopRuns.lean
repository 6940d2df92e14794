import LedgeTopOps.SopHistory

namespace LedgeTopOps.SopDocuments
open List StepRuns

def Pc.knows (db : Db) : Pc → Prop
  | .documentRead m => ∃ d ∈ db.documents, d.id = m.sop ∧ m.expected ≤ d.version
  | .revisionRead m read _ => ∃ d ∈ db.documents, d.id = m.sop ∧ m.expected ≤ read.version ∧ read.version ≤ d.version ∧
      (read.version = d.version → d = read) ∧ m.allows read
  | .write m read => ∃ d ∈ db.documents, d.id = m.sop ∧ m.expected ≤ read.version ∧ read.version ≤ d.version ∧
      (read.version = d.version → d = read) ∧ m.allows read
  | _ => True

def Pc.live : Pc → Bool
  | .ended _ => false
  | _ => true

structure Sound (s : State) : Prop where
  valid : Valid s.db
  fresh : ∀ r ∈ s.db.revisions, r.id < s.flows.length ∧ ∀ pc, s.flows[r.id]? = some pc → pc.live = false
  knows : ∀ (flow : Nat) (pc : Pc), s.flows[flow]? = some pc → pc.knows s.db
  seen : ∀ pair ∈ s.seen, ∃ d ∈ s.db.documents, d.id = pair.1 ∧ pair.2 ≤ d.version
  spent : ∀ pair ∈ s.succeeded, ∃ d ∈ s.db.documents, d.id = pair.1 ∧ pair.2 < d.version
  single : s.succeeded.Nodup

section
variable {after : Db}

theorem Later.bound (later : Later db after) (below : ∃ d ∈ db.documents, d.id = sop ∧ n ≤ d.version) : ∃ d ∈ after.documents, d.id = sop ∧ n ≤ d.version := by
  obtain ⟨d,mem,same,most⟩ := below
  obtain ⟨e,there,kept,more,_⟩ := later.documents d mem
  exact ⟨e,there,kept.trans same,Nat.le_trans most more⟩

theorem knows_later (later : Later db after) {pc : Pc} (knows : pc.knows db) : pc.knows after := by
  have moved : ∀ {m : Mutation} {read : Document},
      (∃ d ∈ db.documents, d.id = m.sop ∧ m.expected ≤ read.version ∧ read.version ≤ d.version ∧ (read.version = d.version → d = read) ∧ m.allows read) →
      ∃ d ∈ after.documents, d.id = m.sop ∧ m.expected ≤ read.version ∧ read.version ≤ d.version ∧ (read.version = d.version → d = read) ∧ m.allows read := by
    intro m read known
    obtain ⟨d,mem,same,seen,ahead,settled,allowed⟩ := known
    obtain ⟨e,there,kept,more,still⟩ := later.documents d mem
    refine ⟨e,there,kept.trans same,seen,Nat.le_trans ahead more,fun equal => ?_,allowed⟩
    have unchanged : d.version = e.version := by omega
    rw [still unchanged]
    exact settled (equal.trans unchanged.symm)
  cases pc with
  | documentRead => exact later.bound knows
  | revisionRead | write => exact moved knows
  | _ => trivial
end

inductive Effect (db after : Db) (uuid : Nat) (pc next : Pc) : Prop where
  | still (same : after = db) (lost : next ≠ .ended .won)
  | created (made : Creates uuid db after) (won : next = .ended .won) (expecting : pc.expecting = [])
  | mutated (m : Mutation) (read : Document) (place : pc = .write m read) (wins : Wins m uuid db after) (won : next = .ended .won)

section
variable {render : String → Rendered}

theorem checked_lost (m : Mutation) (read : Document) : m.checked read ≠ .ended .won := by
  unfold Mutation.checked
  split
  · split <;> exact nofun
  · split <;> exact nofun
  · split
    · exact nofun
    · split <;> exact nofun
  exact nofun

theorem checked_knows {m : Mutation} {read : Document} (mem : read ∈ db.documents) (named : read.id = m.sop) (seen : m.expected ≤ read.version) :
    (m.checked read).knows db := by
  have known : m.allows read → ∃ d ∈ db.documents, d.id = m.sop ∧ m.expected ≤ read.version ∧ read.version ≤ d.version ∧
      (read.version = d.version → d = read) ∧ m.allows read :=
    fun allowed => ⟨read,mem,named,seen,Nat.le_refl _,fun _ => rfl,allowed⟩
  have free : ∀ {change : Change}, m.change = change → (∀ input, change ≠ .draft input) → m.allows read := by
    intro change is other
    unfold Mutation.allows
    rw [is]
    split
    · rename_i input
      exact absurd rfl (other input)
    trivial
  unfold Mutation.checked
  split
  · rename_i input is
    split
    · trivial
    rename_i open_
    refine known ?_
    unfold Mutation.allows
    rw [is]
    exact open_
  · rename_i is
    split
    · trivial
    exact known (free is nofun)
  · rename_i is
    split
    · trivial
    split
    · trivial
    exact known (free is nofun)
  rename_i source is
  exact known (free is nofun)

theorem call_effect (render : String → Rendered) (valid : Valid db) (fresh : pc.live → ∀ r ∈ db.revisions, r.id ≠ uuid) (knows : pc.knows db)
    (active : pc.live) : Effect db (pc.call render db uuid).1 uuid pc (pc.call render db uuid).2 ∧
      (pc.call render db uuid).2.knows (pc.call render db uuid).1 := by
  cases pc with
  | ended => cases active
  | slugRead =>
    simp only [Pc.call]
    split
    · exact ⟨.still rfl nofun,trivial⟩
    exact ⟨.still rfl nofun,trivial⟩
  | create c =>
    simp only [Pc.call]
    split
    · rename_i after counts done
      exact ⟨.created (creation_batch valid (fresh rfl) done) rfl rfl,trivial⟩
    exact ⟨.still rfl nofun,trivial⟩
  | documentRead m =>
    simp only [Pc.call]
    split
    · rename_i read found
      obtain ⟨mem,named⟩ := document_some found
      obtain ⟨d,there,same,seen⟩ := knows
      cases valid.documents.unique there mem (same.trans named.symm)
      exact ⟨.still rfl (checked_lost m read),checked_knows mem named seen⟩
    exact ⟨.still rfl nofun,trivial⟩
  | revisionRead =>
    simp only [Pc.call]
    split
    · split
      · exact ⟨.still rfl nofun,knows⟩
      · exact ⟨.still rfl nofun,trivial⟩
    exact ⟨.still rfl nofun,trivial⟩
  | write m read =>
    obtain ⟨d,mem,same,seen,ahead,settled,allowed⟩ := knows
    have current : ∀ e, db.current m.sop m.expected = some e → e = read := fun e is => by
      obtain ⟨there,named,version⟩ := current_some is
      cases valid.documents.unique there mem (named.trans same.symm)
      exact settled (by omega)
    simp only [Pc.call]
    split
    · exact ⟨.still rfl nofun,trivial⟩
    rename_i plan planned
    split
    · rename_i after counts done
      rcases mutation_batch valid (fresh rfl) planned allowed current done with ⟨count,rfl⟩ | ⟨count,wins⟩
      · rw [if_pos count]
        exact ⟨.still rfl nofun,trivial⟩
      rw [if_neg (by rw [count]; exact nofun)]
      exact ⟨.mutated m read rfl wins rfl,trivial⟩
    exact ⟨.still rfl nofun,trivial⟩
end

section
variable {render : String → Rendered}

theorem Sound.moved {next : Pc} (sound : Sound s) (here : s.flows[flow]? = some pc) (active : pc.live)
    (valid : Valid db) (later : Later s.db db) (knows : next.knows db) (wrote : ∀ r ∈ db.revisions, r ∈ s.db.revisions ∨ (r.id = flow ∧ next.live = false))
    (spent : ∀ pair ∈ won, ∃ d ∈ db.documents, d.id = pair.1 ∧ pair.2 < d.version)
    (single : (won++s.succeeded).Nodup) : Sound ⟨db,s.flows.set flow next,s.seen,won++s.succeeded⟩ := by
  have inside : flow < s.flows.length := (List.getElem?_eq_some_iff.mp here).1
  refine ⟨valid,fun r mem => ⟨?_,fun rival found => ?_⟩,fun other rival found => ?_,fun pair mem => later.bound (sound.seen pair mem),
    fun pair mem => ?_,single⟩
  · show r.id < (s.flows.set flow next).length
    rw [length_set]
    rcases wrote r mem with old | ⟨own,_⟩
    · exact (sound.fresh r old).1
    rw [own]; exact inside
  · by_cases same : r.id = flow
    · dsimp only at found
      rw [same,List.getElem?_set_self inside] at found
      cases found
      rcases wrote r mem with old | ⟨_,ended⟩
      · have dead := (sound.fresh r old).2 pc (by rw [same]; exact here)
        rw [active] at dead
        cases dead
      exact ended
    · dsimp only at found
      rw [List.getElem?_set_ne (Ne.symm same)] at found
      rcases wrote r mem with old | ⟨own,_⟩
      · exact (sound.fresh r old).2 rival found
      exact absurd own same
  · dsimp only at found
    by_cases same : other = flow
    · rw [same,List.getElem?_set_self inside] at found
      cases found
      exact knows
    rw [List.getElem?_set_ne (Ne.symm same)] at found
    exact knows_later later (sound.knows other rival found)
  rcases mem_append.mp mem with new | old
  · exact spent pair new
  · exact later.bound (sound.spent pair old)

theorem live_fresh (sound : Sound s) (here : s.flows[flow]? = some pc) (active : pc.live) : ∀ r ∈ s.db.revisions, r.id ≠ flow := by
  intro r mem same
  have dead := (sound.fresh r mem).2 pc (by rw [same]; exact here)
  rw [active] at dead
  cases dead

theorem step_sound (sound : Sound s) (here : s.flows[flow]? = some pc) :
    Sound { s with
      db := (pc.call render s.db flow).1
      flows := s.flows.set flow (pc.call render s.db flow).2
      succeeded := (if (pc.call render s.db flow).2 = .ended .won then pc.expecting else [])++s.succeeded } := by
  cases active : pc.live with
  | false =>
    cases pc with
    | ended outcome =>
      have same : s.flows.set flow (.ended outcome) = s.flows := by
        obtain ⟨_,is⟩ := List.getElem?_eq_some_iff.mp here
        rw [←is,set_getElem_self]
      show Sound ⟨s.db,s.flows.set flow (.ended outcome),s.seen,(if Pc.ended outcome = .ended .won then [] else [])++s.succeeded⟩
      rw [same,ite_self,nil_append]
      exact sound
    | _ => cases active
  | true =>
    have fresh := live_fresh sound here active
    obtain ⟨effect,knows⟩ := call_effect render sound.valid (fun _ => fresh) (sound.knows flow pc here) active
    cases effect with
    | still same lost =>
      rw [if_neg lost]
      exact sound.moved here active (by rw [same]; exact sound.valid) (by rw [same]; exact Later.rfl) knows
        (fun r mem => .inl (by rw [same] at mem; exact mem)) nofun sound.single
    | created made won expecting =>
      obtain ⟨_,own,more⟩ := made.wrote
      rw [if_pos won,expecting]
      refine sound.moved here active made.valid made.later knows (fun r mem => ?_) nofun sound.single
      rw [more] at mem
      rcases mem_snoc.mp mem with old | rfl
      · exact .inl old
      exact .inr ⟨own,by rw [won]; rfl⟩
    | mutated m _ place wins won =>
      obtain ⟨row,own,more⟩ := wins.wrote
      have expecting : pc.expecting = [(m.sop,m.expected)] := by rw [place]; rfl
      rw [if_pos won,expecting]
      refine sound.moved here active wins.valid wins.later knows (fun r mem => ?_) (fun pair mem => ?_) ?_
      · rw [more] at mem
        rcases mem_snoc.mp mem with old | rfl
        · exact .inl old
        exact .inr ⟨own,by rw [won]; rfl⟩
      · cases mem_singleton.mp mem
        obtain ⟨d,there,same,version⟩ := wins.left
        exact ⟨d,there,same,by omega⟩
      refine nodup_cons.mpr ⟨fun mem => ?_,sound.single⟩
      obtain ⟨d,there,same,above⟩ := sound.spent _ mem
      obtain ⟨e,listed,named,version⟩ := wins.before
      cases sound.valid.documents.unique there listed (same.trans named.symm)
      omega

theorem next_sound (sound : Sound s) (moved : next render s action = some t) : Sound t := by
  have joined : ∀ {pc : Pc}, pc.knows s.db → Sound { s with flows := s.flows++[pc] } := fun {pc} known => by
    refine ⟨sound.valid,fun r mem => ⟨?_,fun rival found => ?_⟩,fun other rival found => ?_,sound.seen,sound.spent,sound.single⟩
    · have inside := (sound.fresh r mem).1
      rw [length_append]
      exact Nat.lt_add_right _ inside
    · have inside := (sound.fresh r mem).1
      rw [List.getElem?_append_left inside] at found
      exact (sound.fresh r mem).2 rival found
    rw [List.getElem?_append] at found
    split at found
    · exact sound.knows other rival found
    cases mem_singleton.mp (List.mem_of_getElem? found)
    exact known
  cases action with
  | create => cases moved; exact joined trivial
  | mutate =>
    obtain ⟨seen,same⟩ := Option.ite_none_right_eq_some.mp moved
    cases same
    exact joined (sound.seen _ seen)
  | view sop =>
    obtain ⟨d,found,rfl⟩ := Option.map_eq_some_iff.mp moved
    obtain ⟨mem,named⟩ := document_some found
    refine ⟨sound.valid,sound.fresh,sound.knows,fun pair mem => ?_,sound.spent,sound.single⟩
    rcases mem_cons.mp mem with rfl | old
    · exact ⟨d,‹d ∈ s.db.documents›,named,Nat.le_refl _⟩
    exact sound.seen pair old
  | step =>
    obtain ⟨_,here,rfl⟩ := Option.map_eq_some_iff.mp moved
    exact step_sound sound here
end

structure Linear (render : String → Rendered) (s : State) : Prop where
  single : s.succeeded.Nodup
  numbered : ∀ d ∈ s.db.documents, s.db.numbers d.id = range' 1 d.version
  parents : ∀ r ∈ s.db.revisions, ∀ p, r.parent = some p → ∃ q ∈ s.db.revisions, q.id = p ∧ q.sop = r.sop ∧ q.number < r.number
  published : ∀ d ∈ s.db.documents, d.status = .published → ∃ p, d.published = some p ∧ ∃ r ∈ s.db.revisions, ∃ q ∈ s.db.revisions,
    r.id = p ∧ r.sop = d.id ∧ r.kind = .published ∧ r.parent = some q.id ∧ q.sop = d.id ∧ r.content = q.content
  drafted : ∀ d ∈ s.db.documents, d.status = .draft → ∃ p, d.draft = some p ∧ s.db.holds p d.id = true
  archived : ∀ d ∈ s.db.documents, d.status = .archived → d.draft = none
  immutable : ∀ (action : Action) (t : State), next render s action = some t → s.db.revisions <+: t.db.revisions
  unchanged : ∀ (flow : Nat) (t : State), next render s (.step flow) = some t →
    t.db = s.db ∨ (s.flows[flow]? ≠ some (.ended .won) ∧ t.flows[flow]? = some (.ended .won))

theorem Sound.linear (sound : Sound s) : Linear render s := by
  have moves : ∀ (flow : Nat) (t : State), next render s (.step flow) = some t →
      s.db.revisions <+: t.db.revisions ∧ (t.db = s.db ∨ (s.flows[flow]? ≠ some (.ended .won) ∧ t.flows[flow]? = some (.ended .won))) := by
    intro flow t moved
    obtain ⟨pc,here,rfl⟩ := Option.map_eq_some_iff.mp moved
    have inside : flow < s.flows.length := (List.getElem?_eq_some_iff.mp here).1
    cases active : pc.live with
    | false =>
      cases pc with
      | ended => exact ⟨prefix_refl _,.inl rfl⟩
      | _ => cases active
    | true =>
      have before : s.flows[flow]? ≠ some (.ended .won) := fun same => by
        rw [here] at same
        cases same
        cases active
      have won : (pc.call render s.db flow).2 = .ended .won → (s.flows.set flow (pc.call render s.db flow).2)[flow]? = some (.ended .won) :=
        fun ends => by rw [List.getElem?_set_self inside,ends]
      cases (call_effect render sound.valid (fun _ => live_fresh sound here active) (sound.knows flow pc here) active).1 with
      | still same => exact ⟨⟨[],(append_nil _).trans (congrArg Db.revisions same).symm⟩,.inl same⟩
      | created made ends => exact ⟨made.later.revisions,.inr ⟨before,won ends⟩⟩
      | mutated _ _ _ wins ends => exact ⟨wins.later.revisions,.inr ⟨before,won ends⟩⟩
  refine ⟨sound.single,sound.valid.numbered,sound.valid.parents,fun d mem status => ?_,fun d mem status => ?_,
    fun d mem => (sound.valid.pointed d mem).archived,fun action t moved => ?_,fun flow t moved => (moves flow t moved).2⟩
  · obtain ⟨p,is⟩ := Option.isSome_iff_exists.mp ((sound.valid.pointed d mem).shown status)
    exact ⟨p,is,(sound.valid.pointed d mem).published p is⟩
  · obtain ⟨p,is⟩ := Option.isSome_iff_exists.mp ((sound.valid.pointed d mem).drafted status)
    exact ⟨p,is,(sound.valid.pointed d mem).draft p is⟩
  cases action with
  | create => cases moved; exact prefix_refl _
  | mutate =>
    obtain ⟨_,same⟩ := Option.ite_none_right_eq_some.mp moved
    cases same
    exact prefix_refl _
  | view =>
    obtain ⟨d,_,rfl⟩ := Option.map_eq_some_iff.mp moved
    exact prefix_refl _
  | step flow => exact (moves flow t moved).1

def empty : State := ⟨⟨[],[],[]⟩,[],[],[]⟩

-- Whatever the order of the reads and the batches of any requests, the history is linear.
theorem history_linear (render : String → Rendered) (actions : List Action) (s : State)
    (run : Runs (fun s action t => next render s action = some t) empty actions s) : Linear render s := by
  have nothing : ∀ {x : Revision}, x ∈ ([] : List Revision) → False := nofun
  refine (run.preserves Sound (fun _ _ _ sound moved => next_sound sound moved) ?_).linear
  refine ⟨⟨nodup_nil,nodup_nil,fun _ member => (nothing member).elim,fun _ member => (not_mem_nil member).elim,
    fun _ member => (nothing member).elim,fun _ member => (not_mem_nil member).elim⟩,fun _ member => (nothing member).elim,
    fun flow pc found => ?_,nofun,nofun,nodup_nil⟩
  cases found

def plain (text : String) : Rendered := ⟨text,"[]",1⟩
def writer : Principal := ⟨"s1","s@x.y","S"⟩
def article : Input := ⟨"Title","Purpose","Body"⟩
def mutation (expected : Nat) (change : Change) : Action := .mutate ⟨0,expected,writer,change⟩

-- Two publications race for the first version; the document is then archived and its first
-- revision restored.
def racing : List Action :=
  [.create ⟨"sop",article,writer⟩,.step 0,.step 0,.view 0,mutation 1 .publish,mutation 1 .publish,.step 1,.step 2,.step 1,.step 2,
    .view 0,mutation 2 .archive,.step 3,.step 3,.view 0,mutation 3 (.restore 0),.step 4,.step 4,.step 4]

def raced : State := (follow (next plain) empty racing).getD empty

theorem history_linear_example : raced.succeeded = [(0,3),(0,2),(0,1)] ∧ raced.db.numbers 0 = [1,2,3,4] ∧ Linear plain raced :=
  have run : Runs (fun s action t => next plain s action = some t) empty racing raced := Runs.of_follow rfl
  ⟨rfl,rfl,history_linear plain racing raced run⟩

theorem empty_sound : Sound empty := by
  have nothing : ∀ {x : Revision}, x ∉ ([] : List Revision) := nofun
  refine ⟨⟨nodup_nil,nodup_nil,fun _ mem => (nothing mem).elim,nofun,fun _ mem => (nothing mem).elim,nofun⟩,fun _ mem => (nothing mem).elim,
    fun flow pc found => ?_,nofun,nofun,nodup_nil⟩
  cases found

theorem Later.trans {middle after : Db} (first : Later db middle) (second : Later middle after) : Later db after := by
  refine ⟨first.revisions.trans second.revisions,fun d mem => ?_⟩
  obtain ⟨e,there,same,more,still⟩ := first.documents d mem
  obtain ⟨f,here,again,further,fixed⟩ := second.documents e there
  exact ⟨f,here,again.trans same,Nat.le_trans more further,fun equal => (fixed (by omega)).trans (still (by omega))⟩

theorem next_later (sound : Sound s) (moved : next render s action = some t) : Later s.db t.db := by
  cases action with
  | create => cases moved; exact .rfl
  | mutate =>
    obtain ⟨_,same⟩ := Option.ite_none_right_eq_some.mp moved
    cases same
    exact .rfl
  | view =>
    obtain ⟨_,_,rfl⟩ := Option.map_eq_some_iff.mp moved
    exact .rfl
  | step flow =>
    obtain ⟨pc,here,rfl⟩ := Option.map_eq_some_iff.mp moved
    cases active : pc.live with
    | false =>
      cases pc with
      | ended => exact .rfl
      | _ => cases active
    | true =>
      cases (call_effect render sound.valid (fun _ => live_fresh sound here active) (sound.knows flow pc here) active).1 with
      | still same => dsimp only; rw [same]; exact .rfl
      | created made => exact made.later
      | mutated _ _ _ wins => exact wins.later

-- A version names one state of its document for ever, and no revision is taken back.
theorem versions_stand (run : Runs (fun s action t => next render s action = some t) empty actions s)
    (more : Runs (fun s action t => next render s action = some t) s further t) : s.db.revisions <+: t.db.revisions ∧
      ∀ d ∈ s.db.documents, (∃ e ∈ t.db.documents, e.id = d.id) ∧
        ∀ e ∈ t.db.documents, e.id = d.id → d.version ≤ e.version ∧ (d.version = e.version → e = d) := by
  have sound : Sound s := run.preserves Sound (fun _ _ _ sound moved => next_sound sound moved) empty_sound
  obtain ⟨ends,later⟩ := more.relates Sound (fun s t => Later s.db t.db) (fun _ => .rfl) (fun _ _ _ => .trans)
    (fun _ _ _ sound moved => ⟨next_sound sound moved,next_later sound moved⟩) sound
  refine ⟨later.revisions,fun d mem => ?_⟩
  obtain ⟨e,there,same,above,still⟩ := later.documents d mem
  refine ⟨⟨e,there,same⟩,fun x listed named => ?_⟩
  cases ends.valid.documents.unique listed there (named.trans same.symm)
  exact ⟨above,still⟩

def published : State := (follow (next plain) empty (racing.take 10)).getD empty

theorem versions_stand_example : published.db.revisions <+: raced.db.revisions ∧ published.db.documents.map (·.version) = [2] ∧
    raced.db.documents.map (·.version) = [4] :=
  ⟨(@versions_stand plain (racing.take 10) published (racing.drop 10) raced (Runs.of_follow rfl) (Runs.of_follow rfl)).1,rfl,rfl⟩
end LedgeTopOps.SopDocuments

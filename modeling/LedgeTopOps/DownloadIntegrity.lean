import LedgeTopOps.Downloads

namespace LedgeTopOps.Downloads
open List AtomicPrograms StepRuns
open Function (update_of_ne update_self update)

def Valid (s : Files) : Prop :=
  ∀ name bytes, s.partials name = some bytes → ∃ state, s.states name = some (some state) ∧ (bytes.length : Int) ≤ state.length

structure Keeps (platform : Platform) (spec : DownloadSpec) (before after : Files) : Prop where
  valid : Valid after
  finals : after.finals = before.finals ∨ ∃ bytes, held platform spec before = some bytes ∧ (bytes.length : Int) = spec.length ∧
    platform.hashData bytes = fromHexString spec.sha256 ∧ before.finals spec.fileName = none ∧
    after.finals = update before.finals spec.fileName (some (.file bytes)) ∧ held platform spec after = none
  states : after.states = before.states ∨ ∃ value, after.states = update before.states (descriptor platform spec) value ∧
    ∀ state, value = some (some state) → state = expected platform spec
  requests : after.requests = before.requests ∨ ∃ offset,
    after.requests = before.requests++[⟨descriptor platform spec,offset,held platform spec before⟩]

def Restored (platform : Platform) (spec : DownloadSpec) (s : Files) : Prop :=
  ∃ request, s.requests.getLast? = some request ∧ request.descriptor = descriptor platform spec ∧
    held platform spec s = some (request.held.getD [])

def terms (platform : Platform) (attempt : Attempt) : Terms Files Outcome where
  inside := Valid
  rely s t := t = s
  guarantee before after _ := Keeps platform attempt.spec before after
  post outcome s := outcome = .rejected .responseExceeds → Restored platform attempt.spec s

section
variable {platform : Platform} {attempt : Attempt}

theorem Keeps.same (valid : Valid s) : Keeps platform spec s s := ⟨valid,.inl rfl,.inl rfl,.inl rfl⟩

theorem reading {next : Files → Program Files Outcome}
    (after : Valid s → Obeys (terms platform attempt) (next s) s) (handled : Valid s → Obeys (terms platform attempt) failed s) :
    Obeys (terms platform attempt) (.read failed next) s := by
  refine obeys_read (fun _ valid => Keeps.same valid) fun t same valid => ?_
  cases same
  exact ⟨after valid,handled valid⟩

theorem calling {effect : Files → Files} {next : Files → Program Files Outcome} (kept : Valid s → Keeps platform attempt.spec s (effect s))
    (after : Valid s → Obeys (terms platform attempt) (next s) (effect s))
    (handled : Valid s → Obeys (terms platform attempt) failed s) : Obeys (terms platform attempt) (.call effect next failed) s := by
  intro t same valid
  cases same
  exact ⟨⟨kept valid,after valid⟩,handled valid⟩

theorem ends (other : outcome ≠ .rejected .responseExceeds) : Obeys (terms platform attempt) (.done outcome) s :=
  fun same => absurd same other

theorem caught_other (exchange : Exchange) : caught exchange ≠ .rejected .responseExceeds := by
  unfold caught
  split
  · decide
  · decide
  · decide
  exact nofun

structure Owned (platform : Platform) (spec : DownloadSpec) (s : Files) : Prop where
  natural : 0 ≤ spec.length
  state : s.states (descriptor platform spec) = some (some (expected platform spec))

@[simp] theorem held_setPartial (content : Option Bytes) : held platform spec (setPartial platform spec content s) = content :=
  update_self ..

theorem Owned.setPartial (owned : Owned platform spec s) (content : Option Bytes) :
    Owned platform spec (setPartial platform spec content s) := ⟨owned.natural,owned.state⟩

section
variable {content : Option Bytes} (valid : Valid s) (owned : Owned platform spec s) (short : ∀ bytes, content = some bytes → bytes.length ≤ trusted spec)
include content valid owned short

theorem setPartial_valid : Valid (setPartial platform spec content s) := by
  intro name bytes stored
  change update s.partials (descriptor platform spec) content name = some bytes at stored
  by_cases same : name = descriptor platform spec
  · subst same
    rw [update_self] at stored
    refine ⟨expected platform spec,owned.state,?_⟩
    have bound := short bytes stored
    have natural := owned.natural
    unfold trusted at bound
    show (bytes.length : Int) ≤ spec.length
    omega
  rw [update_of_ne same] at stored
  exact valid name bytes stored

theorem setPartial_keeps : Keeps platform spec s (setPartial platform spec content s) :=
  ⟨setPartial_valid valid owned short,.inl rfl,.inl rfl,.inl rfl⟩
end

theorem writeAt_end (content bytes : Bytes) : writeAt content.length bytes content = content++bytes := by
  unfold writeAt
  rw [take_length,drop_eq_nil_of_le (Nat.le_add_right ..),append_nil]

theorem writePartial_end (stored : held platform spec s = some content)
    (place : content.length = position) : writePartial platform spec position bytes s = setPartial platform spec (some (content++bytes)) s := by
  unfold writePartial
  rw [stored,←place,Option.map_some,writeAt_end]

theorem ends_caught (exchange : Exchange) : Obeys (terms platform attempt) (fails exchange) s := ends (caught_other exchange)

theorem rejected (other : rejection ≠ .responseExceeds) : Obeys (terms platform attempt) (rejects rejection) s := by
  apply ends
  intro same
  cases same
  exact other rfl

theorem promote_kept (valid : Valid s) (owned : Owned platform spec s) (stored : held platform spec s = some opened)
    (length : opened.length = trusted spec) (verified : platform.hashData opened = fromHexString spec.sha256) :
    Keeps platform spec s (promote platform spec s) := by
  unfold promote
  split
  · exact Keeps.same valid
  rename_i free
  have natural := owned.natural
  refine ⟨setPartial_valid valid owned nofun,.inr ⟨opened,stored,?_,verified,?_,?_,?_⟩,.inl rfl,.inl rfl⟩
  · unfold trusted at length
    omega
  · exact Option.not_isSome_iff_eq_none.mp free
  · show update _ _ _ = _
    rw [stored]
    rfl
  exact held_setPartial none

theorem setState_keeps (valid : Valid s) (none_ : held platform spec s = none)
    (own : ∀ state, value = some (some state) → state = expected platform spec) : Keeps platform spec s (setState platform spec value s) := by
  refine ⟨fun name bytes stored => ?_,.inl rfl,.inr ⟨value,rfl,own⟩,.inl rfl⟩
  have different : name ≠ descriptor platform spec := by
    intro same
    subst same
    cases none_.symm.trans stored
  obtain ⟨state,beside,short⟩ := valid name bytes stored
  refine ⟨state,?_,short⟩
  show update _ _ _ _ = _
  rw [update_of_ne different,beside]

theorem verify_obeys (owned : Owned platform attempt.spec s) : Obeys (terms platform attempt) (verify platform attempt.spec exchange) s := by
  apply reading
  · intro _
    split
    · exact rejected nofun
    rename_i opened stored
    split
    · exact rejected nofun
    rename_i length
    have whole := Decidable.not_not.mp length
    apply reading
    · intro _
      rw [stored,Option.getD_some]
      split
      · apply calling
        · exact fun valid => setPartial_keeps valid owned nofun
        · exact fun _ => rejected nofun
        · exact fun _ => ends_caught exchange
      rename_i verified
      apply reading
      · intro _
        apply calling
        · exact fun valid => promote_kept valid owned stored whole (Decidable.not_not.mp verified)
        · intro _
          split
          · exact rejected nofun
          rename_i free
          apply calling
          · intro valid
            refine setState_keeps valid ?_ nofun
            unfold promote
            rw [if_neg free]
            exact held_setPartial none
          · exact fun _ => ends nofun
          · exact fun _ => ends nofun
        · exact fun _ => ends_caught exchange
      · exact fun _ => ends_caught exchange
    · exact fun _ => ends_caught exchange
  · exact fun _ => ends_caught exchange

structure Streaming (platform : Platform) (spec : DownloadSpec) (base : Bytes) (flushed : Nat) (received : Bytes) (s : Files) :
    Prop where
  owned : Owned platform spec s
  stored : held platform spec s = some (base++received.take flushed)
  inside : flushed ≤ received.length
  room : base.length+received.length ≤ trusted spec
  asked : ∃ request, s.requests.getLast? = some request ∧ request.descriptor = descriptor platform spec ∧ request.held.getD [] = base

section
section
variable (streaming : Streaming platform spec base flushed received s)
include streaming

theorem Streaming.grown (count : Bytes)
    (room : base.length+(received++count).length ≤ trusted spec) : Streaming platform spec base flushed (received++count) s := by
  refine ⟨streaming.owned,?_,?_,room,streaming.asked⟩
  · rw [streaming.stored,take_append_of_le_length streaming.inside]
  rw [length_append]
  exact Nat.le_trans streaming.inside (Nat.le_add_right ..)

theorem Streaming.write (amount : Nat) : writePartial platform spec (base.length+flushed) ((received.drop flushed).take amount) s =
      setPartial platform spec (some (base++received.take (flushed+amount))) s := by
  rw [writePartial_end streaming.stored,append_assoc,←take_add]
  rw [length_append,length_take,Nat.min_eq_left streaming.inside]

theorem Streaming.kept (valid : Valid s) (amount : Nat) :
    Keeps platform spec s (writePartial platform spec (base.length+flushed) ((received.drop flushed).take amount) s) := by
  rw [streaming.write]
  refine setPartial_keeps valid streaming.owned fun bytes same => ?_
  cases same
  have room := streaming.room
  rw [length_append,length_take]
  omega

theorem Streaming.flushed_more (inside : flushed+amount ≤ received.length) : Streaming platform spec base (flushed+amount) received
      (writePartial platform spec (base.length+flushed) ((received.drop flushed).take amount) s) := by
  rw [streaming.write]
  exact ⟨streaming.owned.setPartial _,held_setPartial _,inside,streaming.room,streaming.asked⟩
end

theorem dispose_obeys (streaming : Streaming platform attempt.spec base flushed received s) (turn : Nat)
    (other : outcome ≠ .rejected .responseExceeds) : Obeys (terms platform attempt)
      (dispose platform attempt.spec exchange turn (base.length+flushed) (received.drop flushed) outcome) s := by
  apply calling
  · exact fun valid => streaming.kept valid _
  · exact fun _ => ends other
  · exact fun _ => ends other

theorem Streaming.all (streaming : Streaming platform spec base flushed received s) :
    writePartial platform spec (base.length+flushed) (received.drop flushed) s = setPartial platform spec (some (base++received)) s := by
  rw [writePartial_end streaming.stored,append_assoc,take_append_drop]
  rw [length_append,length_take,Nat.min_eq_left streaming.inside]

theorem probe_obeys (streaming : Streaming platform attempt.spec base flushed received s) (turn : Nat) :
    Obeys (terms platform attempt) (probe platform attempt.spec exchange base.length turn flushed received) s := by
  apply reading
  · intro _
    split
    · have cut : setPartial platform attempt.spec ((held platform attempt.spec
          (writePartial platform attempt.spec (base.length+flushed) (received.drop flushed) s)).map (take base.length)) s =
          setPartial platform attempt.spec (some base) s := by
        rw [streaming.all,held_setPartial,Option.map_some,take_left]
      have room := streaming.room
      apply calling
      · intro valid
        rw [cut]
        refine setPartial_keeps valid streaming.owned fun bytes same => ?_
        cases same
        omega
      · intro _
        rw [cut]
        apply reading
        · intro _ _
          obtain ⟨request,last,own,earlier⟩ := streaming.asked
          exact ⟨request,last,own,by rw [held_setPartial,earlier]⟩
        · exact fun _ => ends_caught exchange
      · exact fun _ => dispose_obeys streaming turn (caught_other exchange)
    apply calling
    · intro valid
      rw [streaming.all]
      refine setPartial_keeps valid streaming.owned fun bytes same => ?_
      cases same
      rw [length_append]
      exact streaming.room
    · intro _
      apply reading
      · exact fun _ => verify_obeys (streaming.owned.setPartial _)
      · exact fun _ => ends_caught exchange
    · exact fun _ => dispose_obeys streaming turn (caught_other exchange)
  · exact fun _ => dispose_obeys streaming turn (caught_other exchange)

theorem receive_obeys (fuel turn : Nat) (streaming : Streaming platform attempt.spec base flushed received s)
    (exact_ : base.length+remaining = trusted attempt.spec) : Obeys (terms platform attempt)
      (receive platform attempt.spec exchange base.length remaining fuel turn flushed received) s := by
  induction fuel generalizing turn flushed received s with
  | zero => exact probe_obeys streaming turn
  | succ fuel ih =>
    unfold receive
    split
    · exact probe_obeys streaming turn
    rename_i more
    apply reading
    · intro _
      dsimp only
      split
      · exact dispose_obeys streaming turn nofun
      have grown := streaming.grown ((exchange.body turn).take (min 65536 (remaining-received.length))) (by
        rw [length_append,length_take]
        omega)
      apply calling
      · exact fun valid => grown.kept valid _
      · intro _
        apply ih (turn+1)
        apply grown.flushed_more
        rw [length_drop]
        have inside := grown.inside
        omega
      · exact fun _ => dispose_obeys grown turn (caught_other exchange)
    · exact fun _ => dispose_obeys streaming turn (caught_other exchange)
end

theorem openPartial_obeys (owned : Owned platform attempt.spec s)
    (asked : ∃ request, s.requests.getLast? = some request ∧ request.descriptor = descriptor platform attempt.spec ∧
      request.held = held platform attempt.spec s)
    (bound : offset ≤ trusted attempt.spec) (short : ∀ bytes, held platform attempt.spec s = some bytes → bytes.length ≤ trusted attempt.spec) :
    Obeys (terms platform attempt) (openPartial platform attempt.spec exchange offset) s := by
  apply calling
  · intro valid
    refine setPartial_keeps valid owned fun bytes same => ?_
    cases stored : held platform attempt.spec s with
    | none =>
      rw [stored] at same
      cases same
      exact Nat.zero_le _
    | some =>
      rw [stored] at same
      cases same
      exact short _ stored
  · intro _
    split
    · exact rejected nofun
    rename_i unchanged
    have length := Decidable.not_not.mp unchanged
    apply reading
    · intro _
      rw [←length] at bound ⊢
      apply receive_obeys
      · refine ⟨owned.setPartial _,?_,Nat.le_refl _,bound,?_⟩
        · rw [held_setPartial,take_nil,append_nil]
        · obtain ⟨request,last,own,same⟩ := asked
          exact ⟨request,last,own,by rw [same]⟩
      · omega
    · exact fun _ => ends_caught exchange
  · exact fun _ => ends_caught exchange

theorem responseRejection_other (given : responseRejection spec exchange offset = some outcome) : outcome ≠ .rejected .responseExceeds := by
  unfold responseRejection at given
  dsimp only at given
  repeat' split at given
  all_goals
    cases given
    try exact nofun

section
variable (owned : Owned platform attempt.spec s) (bound : offset ≤ trusted attempt.spec) (short : ∀ bytes, held platform attempt.spec s = some bytes → bytes.length ≤ trusted attempt.spec)
include owned bound short

theorem send_obeys : Obeys (terms platform attempt) (send platform attempt.spec exchange offset) s := by
  apply calling
  · exact fun valid => ⟨valid,.inl rfl,.inl rfl,.inr ⟨offset,rfl⟩⟩
  · intro _
    apply reading
    · intro _
      split
      · rename_i outcome given
        exact ends (responseRejection_other given)
      apply reading
      · intro _
        refine openPartial_obeys ⟨owned.natural,owned.state⟩ ?_ bound short
        exact ⟨_,List.getLast?_concat ..,rfl,rfl⟩
      · exact fun _ => ends_caught exchange
    · exact fun _ => ends_caught exchange
  · exact fun _ => ends_caught exchange

theorem fetch_obeys :
    Obeys (terms platform attempt) (fetch downloader platform attempt.spec exchange offset) s := by
  apply reading
  · intro _
    split
    · split
      · apply reading
        · exact fun _ => send_obeys owned bound short
        · exact fun _ => ends_caught exchange
      · exact send_obeys owned bound short
    apply reading
    · exact fun _ => verify_obeys owned
    · exact fun _ => ends_caught exchange
  · exact fun _ => ends_caught exchange
end

theorem Owned.short (owned : Owned platform spec s) (valid : Valid s) : ∀ bytes, held platform spec s = some bytes → bytes.length ≤ trusted spec := by
  intro bytes stored
  obtain ⟨state,beside,short⟩ := valid _ bytes stored
  cases owned.state.symm.trans beside
  have natural := owned.natural
  change (bytes.length : Int) ≤ spec.length at short
  unfold trusted
  omega

theorem transfer_obeys (owned : Owned platform attempt.spec s) :
    Obeys (terms platform attempt) (transfer downloader platform attempt.spec exchange) s := by
  apply reading
  · intro valid
    have short := owned.short valid
    dsimp only
    split
    · exact rejected nofun
    split
    · apply calling
      · exact fun _ => setPartial_keeps valid owned nofun
      · intro _
        refine fetch_obeys (owned.setPartial _) (Nat.zero_le _) fun bytes same => ?_
        rw [held_setPartial] at same
        cases same
      · exact fun _ => ends_caught exchange
    rename_i fits _
    exact fetch_obeys owned (Nat.not_lt.mp fits) short
  · exact fun _ => ends_caught exchange

theorem validate_natural (passed : validate downloader platform spec = none) : 0 ≤ spec.length := by
  unfold validate at passed
  split at passed
  · cases passed
  split at passed
  · cases passed
  rename_i bounds
  simp only [Bool.or_eq_true,decide_eq_true_eq,not_or] at bounds
  exact Int.not_lt.mp bounds.1.2

theorem setState_owned (natural : 0 ≤ spec.length) : Owned platform spec (setState platform spec (some (some (expected platform spec))) s) :=
  ⟨natural,update_self ..⟩

theorem code_obeys : Obeys (terms platform attempt) (code platform attempt) s := by
  have threw : Obeys (terms platform attempt) (.done (.threw attempt.exchange.raised)) s := ends nofun
  apply reading
  · intro _
    split
    · rename_i rejection given
      apply rejected
      unfold validate at given
      repeat' split at given
      all_goals
        cases given
        try exact nofun
    rename_i passed
    have natural := validate_natural passed
    apply reading
    · intro _
      split
      · exact rejected nofun
      apply reading
      · intro _
        split
        · exact rejected nofun
        · rename_i state beside
          split
          · exact rejected nofun
          rename_i same
          apply transfer_obeys
          exact ⟨natural,by rw [beside,Decidable.not_not.mp same]⟩
        rename_i missing
        split
        · exact rejected nofun
        rename_i none_
        have free := Option.not_isSome_iff_eq_none.mp none_
        apply calling
        · exact fun valid => setState_keeps valid free nofun
        · intro _
          apply calling
          · intro valid
            refine setState_keeps valid free fun state same => ?_
            cases same
            rfl
          · intro _
            apply reading
            · exact fun _ => transfer_obeys (setState_owned natural)
            · exact fun _ => ends nofun
          · exact fun _ => ends nofun
        · exact fun _ => ends nofun
      · exact fun _ => threw
    · exact fun _ => threw
  · exact fun _ => threw
end

theorem discipline (platform : Platform) : Line.Discipline (code platform) Valid (terms platform) where
  same _ _ := rfl
  inside _ _ valid := valid
  entered _ _ _ := code_obeys
  kept _ _ _ _ _ keeps := keeps.valid

abbrev Session := Line Files Attempt Outcome
abbrev Taken := Transition Session (Turn Attempt)

def Attempted (history : List Taken) (spec : DownloadSpec) : Prop :=
  ∃ taken ∈ history, ∃ attempt, taken.event = .start attempt ∧ attempt.spec = spec

def untouched (finals : Name → Option Entry) : Session := ⟨⟨finals,fun _ => none,fun _ => none,[]⟩,none⟩

-- What any history of attempts satisfies, with the state it ends in. Two specs of
-- one descriptor and of different lengths are a collision of hashes.
structure Intact (platform : Platform) (history : List Taken) (final : Session) : Prop where
  promoted : ∀ taken ∈ history, taken.after.store.finals = taken.before.store.finals ∨ ∃ attempt program bytes,
    taken.after.current = some (attempt,program) ∧ held platform attempt.spec taken.before.store = some bytes ∧
      (bytes.length : Int) = attempt.spec.length ∧ platform.hashData bytes = fromHexString attempt.spec.sha256 ∧
      taken.before.store.finals attempt.spec.fileName = none ∧ taken.after.store.finals =
        update taken.before.store.finals attempt.spec.fileName (some (.file bytes)) ∧
      held platform attempt.spec taken.after.store = none
  kept : ∀ taken ∈ history, ∀ name entry, taken.before.store.finals name = some entry → final.store.finals name = some entry
  belongs : ∀ name bytes, final.store.partials name = some bytes →
    ∃ spec, Attempted history spec ∧ descriptor platform spec = name ∧ (bytes.length : Int) ≤ spec.length
  bounded : ∀ spec, (∀ other, Attempted history other → descriptor platform other = descriptor platform spec →
    other.length = spec.length) → ∀ bytes, held platform spec final.store = some bytes → (bytes.length : Int) ≤ spec.length
  restored : ∀ attempt, final.current = some (attempt,.done (.rejected .responseExceeds)) → ∃ taken ∈ history, ∃ offset,
    taken.after.store.requests = taken.before.store.requests++
      [⟨descriptor platform attempt.spec,offset,held platform attempt.spec taken.before.store⟩] ∧
    final.store.requests = taken.after.store.requests ∧
    held platform attempt.spec final.store = some ((held platform attempt.spec taken.before.store).getD [])

section
variable {platform : Platform} {history : List Taken} {after : Session}

theorem step_keeps (orderly : Line.Orderly Valid (terms platform) before) (moved : Line.Step (code platform) before event after) :
    after.store = before.store ∨ ∃ attempt program, after.current = some (attempt,program) ∧
      Keeps platform attempt.spec before.store after.store := (discipline platform).effect orderly moved

structure Kept (platform : Platform) (history : List Taken) (current : Session) : Prop where
  orderly : Line.Orderly Valid (terms platform) current
  running : ∀ attempt program, current.current = some (attempt,program) → Attempted history attempt.spec
  states : ∀ name state, current.store.states name = some (some state) →
    ∃ spec, Attempted history spec ∧ descriptor platform spec = name ∧ state.length = spec.length
  finals : ∀ taken ∈ history, ∀ name entry, taken.before.store.finals name = some entry → current.store.finals name = some entry
  promoted : ∀ taken ∈ history, taken.after.store.finals = taken.before.store.finals ∨ ∃ attempt program bytes,
    taken.after.current = some (attempt,program) ∧ held platform attempt.spec taken.before.store = some bytes ∧
      (bytes.length : Int) = attempt.spec.length ∧ platform.hashData bytes = fromHexString attempt.spec.sha256 ∧
      taken.before.store.finals attempt.spec.fileName = none ∧ taken.after.store.finals =
        update taken.before.store.finals attempt.spec.fileName (some (.file bytes)) ∧
      held platform attempt.spec taken.after.store = none
  asked : ∀ request, current.store.requests.getLast? = some request → ∃ taken ∈ history,
    taken.after.store.requests = taken.before.store.requests++[request] ∧ current.store.requests = taken.after.store.requests ∧
    request.held = taken.before.store.partials request.descriptor

theorem Attempted.later (attempted : Attempted history spec) : Attempted (history++more) spec := by
  obtain ⟨taken,mem,found⟩ := attempted
  exact ⟨taken,mem_append_left _ mem,found⟩

theorem step_running (running : ∀ attempt program, before.current = some (attempt,program) → Attempted history attempt.spec)
    (moved : Line.Step (code platform) before event after) (attempt : Attempt) (program : Program Files Outcome)
    (current : after.current = some (attempt,program)) : Attempted (history++[⟨before,event,after⟩]) attempt.spec := by
  cases moved with
  | start =>
    cases current
    exact ⟨_,mem_append_right _ (mem_singleton_self _),attempt,rfl,rfl⟩
  | call | failed =>
    cases current
    exact (running _ _ rfl).later

theorem Keeps.finals_kept (keeps : Keeps platform spec s t) (name : Name) (entry : Entry)
    (stored : s.finals name = some entry) : t.finals name = some entry := by
  rcases keeps.finals with same | ⟨bytes,-,-,-,free,made,-⟩
  · rw [same,stored]
  have different : name ≠ spec.fileName := by
    intro equal
    subst equal
    cases free.symm.trans stored
  rw [made,update_of_ne different,stored]

theorem Kept.step (kept : Kept platform history before) (moved : Line.Step (code platform) before event after) :
    Kept platform (history++[⟨before,event,after⟩]) after := by
  have effect := step_keeps kept.orderly moved
  have running := step_running kept.running moved
  have forward : ∀ name entry, before.store.finals name = some entry → after.store.finals name = some entry := by
    intro name entry stored
    rcases effect with same | ⟨attempt,program,-,keeps⟩
    · rw [same,stored]
    exact keeps.finals_kept name entry stored
  refine ⟨(discipline platform).step kept.orderly moved,running,?_,?_,?_,?_⟩
  · intro name state stored
    have earlier : before.store.states name = some (some state) →
        ∃ spec, Attempted (history++[⟨before,event,after⟩]) spec ∧ descriptor platform spec = name ∧ state.length = spec.length := by
      intro old
      obtain ⟨spec,attempted,same⟩ := kept.states name state old
      exact ⟨spec,attempted.later,same⟩
    rcases effect with same | ⟨attempt,program,current,keeps⟩
    · rw [same] at stored
      exact earlier stored
    rcases keeps.states with same | ⟨value,made,own⟩
    · rw [same] at stored
      exact earlier stored
    rw [made] at stored
    by_cases equal : name = descriptor platform attempt.spec
    · subst equal
      rw [update_self] at stored
      rw [own state stored]
      exact ⟨attempt.spec,running attempt program current,rfl,rfl⟩
    rw [update_of_ne equal] at stored
    exact earlier stored
  · intro taken mem name entry stored
    rcases mem_snoc.mp mem with old | rfl
    · exact forward name entry (kept.finals taken old name entry stored)
    exact forward name entry stored
  · intro taken mem
    rcases mem_snoc.mp mem with old | rfl
    · exact kept.promoted taken old
    rcases effect with same | ⟨attempt,program,current,keeps⟩
    · exact .inl (by rw [same])
    rcases keeps.finals with same | ⟨bytes,made⟩
    · exact .inl same
    exact .inr ⟨attempt,program,bytes,current,made⟩
  intro request last
  have earlier : after.store.requests = before.store.requests → ∃ taken ∈ history++[⟨before,event,after⟩],
      taken.after.store.requests = taken.before.store.requests++[request] ∧ after.store.requests = taken.after.store.requests ∧
      request.held = taken.before.store.partials request.descriptor := by
    intro same
    rw [same] at last ⊢
    obtain ⟨taken,mem,asked⟩ := kept.asked request last
    exact ⟨taken,mem_append_left _ mem,asked⟩
  rcases effect with same | ⟨attempt,program,-,keeps⟩
  · exact earlier (by rw [same])
  rcases keeps.requests with same | ⟨offset,made⟩
  · exact earlier same
  rw [made,List.getLast?_concat] at last
  cases last
  exact ⟨_,mem_append_right _ (mem_singleton_self _),made,rfl,rfl⟩
end

theorem untouched_kept (finals : Name → Option Entry) : Kept platform [] (untouched finals) := by
  constructor
  case orderly =>
    constructor
    · intro _ _ stored
      cases stored
    intro _ _ current
    cases current
  case running =>
    intro _ _ current
    cases current
  case states =>
    intro _ _ stored
    cases stored
  case asked =>
    intro _ last
    cases last
  all_goals
    intro _ mem
    cases mem

theorem downloads_intact (platform : Platform) (finals : Name → Option Entry) (history : List Taken) (final : Session)
    (path : Runs (Recorded (Line.Step (code platform))) (untouched finals) history final) : Intact platform history final := by
  have kept : Kept platform history final := by
    apply path.preserves_history (Kept platform)
    · intro _ s _ t kept moved
      obtain ⟨rfl,rfl,ran⟩ := moved
      exact kept.step ran
    · exact untouched_kept finals
  have belongs : ∀ name bytes, final.store.partials name = some bytes →
      ∃ spec, Attempted history spec ∧ descriptor platform spec = name ∧ (bytes.length : Int) ≤ spec.length := by
    intro name bytes stored
    obtain ⟨state,beside,short⟩ := kept.orderly.valid name bytes stored
    obtain ⟨spec,attempted,own,length⟩ := kept.states name state beside
    exact ⟨spec,attempted,own,length ▸ short⟩
  refine ⟨kept.promoted,kept.finals,belongs,?_,?_⟩
  · intro _ distinct bytes stored
    obtain ⟨other,attempted,own,short⟩ := belongs _ bytes stored
    rw [←distinct other attempted own]
    exact short
  intro attempt current
  obtain ⟨request,last,own,restored⟩ := kept.orderly.obeys attempt _ current rfl
  obtain ⟨taken,member,made,same,earlier⟩ := kept.asked request last
  rw [own] at earlier
  refine ⟨taken,member,request.offset,?_,same,?_⟩
  · rw [made]
    congr 2
    cases request
    simp_all [held]
  rw [restored,earlier]
  rfl

def abcDigest : Name := "ba7816bf8f01cfea414140de5dae2223b00361a396177a9cb410ff61f20015ad".toList

def samplePlatform : Platform where
  origin _ := some "https://files.example".toList
  canonicalETag tag := tag == "\"v1\"".toList
  whiteSpace char := char == ' '
  invisible _ := false
  hashText _ := "c2bb3ccfff6a5dec63bfc98b37438bd1cbf44fb16376761c797302e8392207aa".toList
  hashDescription _ := "f5cdf9f19918b59a21b0e6c5aed39e7aba2cd931a035888a3cca103127f14e5e".toList
  hashData bytes := if bytes = [97,98,99] then fromHexString abcDigest else []

def sampleDownloader : Downloader := ⟨["https://files.example".toList],1000,false⟩

def sampleSpec : DownloadSpec :=
  ⟨"file-1".toList,"https://files.example/1".toList,"a.bin".toList,3,"\"v1\"".toList,abcDigest⟩

def endsEarly : Attempt := ⟨sampleDownloader,sampleSpec,
  ⟨⟨200,some ("\"v1\"".toList,false),some 3,[],none⟩,fun turn => if turn = 0 then [97,98] else [],fun _ => 65536,.transport⟩⟩

def goesOn : Attempt := ⟨sampleDownloader,sampleSpec,
  ⟨⟨206,some ("\"v1\"".toList,false),some 1,[],some ⟨"bytes".toList,some 2,some 2,some 3⟩⟩,fun _ => [99],fun _ => 65536,.transport⟩⟩

def sampleTurns : List (Turn Attempt) :=
  .start endsEarly :: replicate 17 .call++.start goesOn :: replicate 15 .call

def sampleEnd : Session := sampleTurns.foldl (Line.play (code samplePlatform)) (untouched fun _ => none)

theorem downloads_intact_example :
    Intact samplePlatform (trace (Line.play (code samplePlatform)) (untouched fun _ => none) sampleTurns) sampleEnd ∧
      sampleEnd.store.partials (descriptor samplePlatform sampleSpec) = some [97,98] :=
  ⟨downloads_intact samplePlatform (fun _ => none) _ _ (Line.played (by decide +kernel)),by decide +kernel⟩
end LedgeTopOps.Downloads

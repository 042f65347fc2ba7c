import Polyglot.Proofs.Facade.Handling
import Polyglot.Proofs.Facade.SingleFlight
import Polyglot.Proofs.Facade.Surroundings

/-!
# Requests are kept apart

Successive requests to a facade share its registry, and so the warm workers in it.  Yet
whatever happened to earlier requests, the result of a request holds no output but what
was emitted for the code of that request.
-/

namespace Polyglot.Facade

namespace Chronicle

/-- What holds of a chronicle whatever happened in it. -/
structure Sound (chronicle : Chronicle) (config : Config) : Prop where
  world : chronicle.world.Sound
  configured : chronicle.world.facade.config = config
  founded : chronicle.founded ≤ chronicle.world.host.sandboxes.length
  unheard : Unheard chronicle.world.host chronicle.accounts
  idle : (∀ number, ¬chronicle.world.InFlight number) →
    chronicle.world.host.Tends chronicle.failures chronicle.accounts
      chronicle.world.facade.registry .idle
  attends : ∀ (number : Nat) (asked : RunRequest) (request : Request),
    chronicle.world.futures[number]? = some (.polled asked request) → request.isInFlight = true →
      Attends chronicle.failures chronicle.world.host chronicle.accounts config
        chronicle.world.facade.registry chronicle.founded number asked request
  answers : ∀ (number : Nat) (asked : RunRequest) (report : Report),
    chronicle.world.futures[number]? = some (.polled asked (.finished report)) →
      Answers chronicle.failures chronicle.accounts config number asked report

theorem sound_fresh (host : Host) (facade : Facade) :
    (fresh host facade).Sound facade.config where
  world := World.sound_fresh host facade
  configured := rfl
  founded := Nat.le_refl _
  unheard _ _ _ := rfl
  idle _ := by
    have serves := Worker.Registry.serves_empty []
    exact .aside ⟨{}, by simp [fresh, World.fresh], serves⟩ .idle
  attends _ _ _ found := by simp [fresh, World.fresh] at found
  answers _ _ _ found := by simp [fresh, World.fresh] at found

section Steps

variable {chronicle : Chronicle} {config : Config} {number : Nat}

/-- Contexts of executors that were not made have nothing to their account. -/
theorem unheard_keeps {host after : Host} {accounts accounts' : Seat → Account}
    (unheard : Unheard host accounts) (keeps : host.Keeps after)
    (same : ∀ executor context : Nat, after.sandboxes[executor]? = none →
      accounts' (.sandbox executor context) = accounts (.sandbox executor context)) :
    Unheard after accounts' := by
  intro executor context nothing
  rw [same executor context nothing]
  apply unheard
  have beyond := List.getElem?_eq_none_iff.mp nothing
  exact List.getElem?_eq_none (Nat.le_trans keeps.sandboxes.length_le beyond)

/-- Nothing is submitted to contexts of executors that were not made. -/
theorem unheard_posts {host after : Host} {accounts accounts' : Seat → Account} {owner : Nat}
    (unheard : Unheard host accounts) (keeps : host.Keeps after)
    (posts : Posts owner host.codes accounts after.codes accounts') : Unheard after accounts' := by
  refine unheard_keeps unheard keeps fun executor context nothing => ?_
  rw [posts.eq_post (.sandbox executor context)]
  simp [Host.codes, nothing]

theorem extends_of_posts {host after : Host} {accounts accounts' : Seat → Account} {owner : Nat}
    (posts : Posts owner host.codes accounts after.codes accounts') (seat : Seat) :
    (accounts seat).Extends (accounts' seat) := by
  rw [posts.eq_post seat]
  exact Account.extends_post _ _ _

/-- What happens elsewhere leaves a chronicle sound if it leaves every duty that the host
can have. -/
theorem Sound.elsewhere (sound : chronicle.Sound config) {host : Host} {accounts : Seat → Account}
    {failures : List TransportError} (keeps : chronicle.world.host.Keeps host)
    (unheard : Unheard host accounts)
    (later : ∀ seat, (chronicle.accounts seat).Extends (accounts seat))
    (subset : chronicle.failures ⊆ failures)
    (idle : (∀ number, ¬chronicle.world.InFlight number) →
      chronicle.world.host.Tends chronicle.failures chronicle.accounts
        chronicle.world.facade.registry .idle →
      host.Tends failures accounts chronicle.world.facade.registry .idle)
    (calls : ∀ (number : Nat) (asked : RunRequest) (request : Request),
      chronicle.world.futures[number]? = some (.polled asked request) →
      request.isInFlight = true →
      ∀ executor purpose pending, request.executor? = some executor →
      (∀ sandbox, executor.sandbox? = some sandbox → chronicle.founded ≤ sandbox) →
      chronicle.world.host.Tends chronicle.failures chronicle.accounts
        chronicle.world.facade.registry (.call number executor purpose pending) →
      host.Tends failures accounts chronicle.world.facade.registry
        (.call number executor purpose pending)) :
    Sound ⟨{ chronicle.world with host }, chronicle.founded, accounts, failures⟩ config where
  world := sound.world.of_keeps keeps
  configured := sound.configured
  founded := Nat.le_trans sound.founded keeps.sandboxes.length_le
  unheard := unheard
  idle nobody := idle nobody (sound.idle nobody)
  attends number asked request found inFlight :=
    (sound.attends number asked request found inFlight).map inFlight
      (calls number asked request found inFlight)
  answers number asked report found := (sound.answers number asked report found).mono later subset

/-- Something happens that leaves every duty what it is and tells nothing. -/
theorem Sound.aside (sound : chronicle.Sound config) {host : Host}
    (keeps : chronicle.world.host.Keeps host)
    (duties : ∀ duty, chronicle.world.host.Tends chronicle.failures chronicle.accounts
        chronicle.world.facade.registry duty →
      host.Tends chronicle.failures chronicle.accounts chronicle.world.facade.registry duty) :
    Sound { chronicle with world := { chronicle.world with host } } config :=
  sound.elsewhere keeps (unheard_keeps sound.unheard keeps fun _ _ _ => rfl) (fun _ => .refl _)
    (List.Subset.refl _) (fun _ => duties .idle) (fun _ _ _ _ _ _ _ _ _ _ => duties _)

/-- The facade has gone on with a request while no other was in flight. -/
theorem Sound.advance (sound : chronicle.Sound config) (asked : RunRequest) {host : Host}
    {facade : Facade} {request : Request} {accounts : Seat → Account} {future : Future}
    (world : World.Sound ⟨host, facade, chronicle.world.futures.set number future⟩)
    (keeps : chronicle.world.host.Keeps host)
    (same : facade.config = chronicle.world.facade.config)
    (registry : facade.registry = chronicle.world.facade.registry)
    (inside : number < chronicle.world.futures.length)
    (alone : ∀ other, chronicle.world.InFlight other → other = number)
    (unheard : Unheard host accounts)
    (later : ∀ seat, (chronicle.accounts seat).Extends (accounts seat))
    (attends : Attends chronicle.failures host accounts config chronicle.world.facade.registry
      chronicle.founded number asked request)
    (becomes : future = .polled asked request ∨
      future.isInFlight = false ∧ request.isInFlight = false ∧
        ∀ asked report, future ≠ .polled asked (.finished report)) :
    Sound ⟨⟨host, facade, chronicle.world.futures.set number future⟩, chronicle.founded, accounts,
      chronicle.failures⟩ config := by
  have idle (isOver : request.isInFlight = false) : host.Tends chronicle.failures accounts
      chronicle.world.facade.registry .idle := by
    cases attends with
    | starting suits tends => contradiction
    | executing suits tends => contradiction
    | finished answers tends => exact tends
    | abandoned tends => exact tends
  refine ⟨world, same.trans sound.configured,
    Nat.le_trans sound.founded keeps.sandboxes.length_le, unheard, ?_, ?_, ?_⟩
  · intro nobody
    rw [registry]
    rcases becomes with rfl | ⟨-, isOver, -⟩
    · apply idle
      have grounded : ¬request.isInFlight = true := fun flies =>
        nobody number ⟨_, List.getElem?_set_self inside, flies⟩
      exact Bool.eq_false_iff.mpr grounded
    · exact idle isOver
  · intro other askedOther requestOther found flies
    rw [registry]
    by_cases same : number = other
    · subst same
      rw [List.getElem?_set_self inside] at found
      cases found
      rcases becomes with isFuture | ⟨isOver, -⟩
      · cases isFuture
        exact attends
      · rw [Future.isInFlight, flies] at isOver
        contradiction
    · rw [List.getElem?_set_ne same] at found
      exact absurd (alone other ⟨_, found, flies⟩).symm same
  · intro other askedOther report found
    by_cases same : number = other
    · subst same
      rw [List.getElem?_set_self inside] at found
      cases found
      rcases becomes with isFuture | ⟨-, -, unfinished⟩
      · cases isFuture
        cases attends with
        | finished answers tends => exact answers
      · exact absurd rfl (unfinished askedOther report)
    · rw [List.getElem?_set_ne same] at found
      exact (sound.answers other askedOther report found).mono later (List.Subset.refl _)

/-- What became of one request changes while it is not in flight. -/
theorem Sound.replace (sound : chronicle.Sound config) {old future : Future}
    (found : chronicle.world.futures[number]? = some old) (was : old.isInFlight = false)
    (world : World.Sound { chronicle.world with
      futures := chronicle.world.futures.set number future })
    (grounded : future.isInFlight = false)
    (answers : ∀ asked report, future = .polled asked (.finished report) →
      Answers chronicle.failures chronicle.accounts config number asked report) :
    Sound { chronicle with world := { chronicle.world with
      futures := chronicle.world.futures.set number future } } config where
  world := world
  configured := sound.configured
  founded := sound.founded
  unheard := sound.unheard
  idle nobody := by
    refine sound.idle fun other flies => ?_
    obtain ⟨same, foundOther, inFlight⟩ := flies
    have different : number ≠ other := by
      rintro rfl
      rw [found] at foundOther
      cases foundOther
      rw [was] at inFlight
      contradiction
    exact nobody other ⟨same, by rw [List.getElem?_set_ne different, foundOther], inFlight⟩
  attends other asked request foundOther inFlight := by
    by_cases same : number = other
    · subst same
      have inside : number < chronicle.world.futures.length :=
        (List.getElem?_eq_some_iff.mp found).1
      simp only [List.getElem?_set_self inside, Option.some.injEq] at foundOther
      rw [foundOther, Future.isInFlight, inFlight] at grounded
      contradiction
    · rw [List.getElem?_set_ne same] at foundOther
      exact sound.attends other asked request foundOther inFlight
  answers other asked report foundOther := by
    by_cases same : number = other
    · subst same
      have inside : number < chronicle.world.futures.length :=
        (List.getElem?_eq_some_iff.mp found).1
      simp only [List.getElem?_set_self inside, Option.some.injEq] at foundOther
      exact answers asked report foundOther
    · rw [List.getElem?_set_ne same] at foundOther
      exact sound.answers other asked report foundOther

theorem Sound.make (sound : chronicle.Sound config) (asked : RunRequest) :
    Sound { chronicle with world := chronicle.world.step (.make asked) } config where
  world := sound.world.make asked
  configured := sound.configured
  founded := sound.founded
  unheard := sound.unheard
  idle nobody := by
    refine sound.idle fun other flies => nobody other ?_
    obtain ⟨future, found, inFlight⟩ := flies
    have inside := (List.getElem?_eq_some_iff.mp found).1
    exact ⟨future, by simp [World.step, List.getElem?_append_left inside, found], inFlight⟩
  attends number asked request found inFlight := by
    simp only [World.step, List.getElem?_append] at found
    split at found
    · exact sound.attends number asked request found inFlight
    · cases List.mem_singleton.mp (List.mem_of_getElem? found)
  answers number asked report found := by
    simp only [World.step, List.getElem?_append] at found
    split at found
    · exact sound.answers number asked report found
    · cases List.mem_singleton.mp (List.mem_of_getElem? found)

/-- A request is polled, and what it submits is to its account. -/
theorem Sound.poll (sound : chronicle.Sound config) (receiver : String → Option Nat)
    (number : Nat) :
    Sound ⟨chronicle.world.poll receiver number, chronicle.founded,
      chronicle.accountAfter (.poll receiver number), chronicle.failures⟩ config := by
  have world := sound.world.poll receiver number
  have kept (same : (chronicle.world.poll receiver number).host = chronicle.world.host) :
      chronicle.accountAfter (.poll receiver number) = chronicle.accounts := by
    refine accountAfter_of_posts rfl (posts_nothing number chronicle.accounts fun seat => ?_)
    rw [World.step, same]
  have polled := chronicle.world.polled receiver number
  generalize isAfter : chronicle.world.poll receiver number = after at polled world kept ⊢
  have host : (chronicle.world.step (.poll receiver number)).host = after.host := by
    rw [World.step, isAfter]
  cases polled with
  | still =>
      rw [kept rfl]
      exact sound
  | refused found running =>
      rw [kept rfl]
      refine sound.replace found rfl world rfl ?_
      rintro same report isFuture
      cases isFuture
      exact .refused _
  | @begun asked found idle after executed =>
      subst executed
      have inside := (List.getElem?_eq_some_iff.mp found).1
      have nobody := sound.world.nobody idle
      have advances := advances_execute sound.world.registry idle asked
      obtain ⟨accounts, posts, attends⟩ := proceeds_execute idle (sound.idle nobody)
        sound.unheard sound.founded number asked
      rw [sound.configured] at attends
      rw [accountAfter_of_posts rfl (by rwa [host])]
      exact sound.advance asked world advances.keeps advances.config advances.registry
        inside (fun other flies => absurd flies (nobody other))
        (unheard_posts sound.unheard advances.keeps posts) (extends_of_posts posts)
        attends (.inl rfl)
  | @turned asked request found inFlight after turned =>
      have inside := (List.getElem?_eq_some_iff.mp found).1
      obtain ⟨alone, running, armed⟩ := sound.world.busy found inFlight
      have advances := (advances_turn running armed sound.world.has turned).2
      obtain ⟨accounts, posts, attends⟩ := proceeds_turn
        (sound.attends number asked request found inFlight) turned
      rw [accountAfter_of_posts rfl (by rwa [host])]
      exact sound.advance asked world advances.keeps advances.config advances.registry
        inside alone (unheard_posts sound.unheard advances.keeps posts)
        (extends_of_posts posts) attends (.inl rfl)

theorem Sound.drop (sound : chronicle.Sound config) (number : Nat) :
    Sound { chronicle with world := chronicle.world.drop number } config := by
  have world := sound.world.drop number
  have dropped := chronicle.world.dropped number
  generalize chronicle.world.drop number = after at dropped world ⊢
  cases dropped with
  | still => exact sound
  | unbegun found => exact sound.replace found rfl world rfl (by simp)
  | @abandoned asked request executor found inFlight isExecutor =>
      obtain ⟨alone, running, armed⟩ := sound.world.busy found inFlight
      have advances := (advances_abandon chronicle.world.facade isExecutor
        (sound.world.has executor (armed.trans isExecutor))).1
      have attends := sound.attends number asked request found inFlight
      exact sound.advance asked world advances.keeps advances.config advances.registry
        (List.getElem?_eq_some_iff.mp found).1 alone
        (unheard_keeps sound.unheard advances.keeps fun _ _ _ => rfl)
        (fun _ => .refl _) (.abandoned (attends.abandon chronicle.world.facade))
        (.inr ⟨rfl, rfl, by simp⟩)

/-- The facade is destroyed. -/
theorem Sound.destroy (sound : chronicle.Sound config) :
    Sound { chronicle with world := chronicle.world.step .destroy } config := by
  have keeps := keeps_destroy chronicle.world.host chronicle.world.facade
  refine sound.elsewhere keeps (unheard_keeps sound.unheard keeps fun _ _ _ => rfl)
    (fun _ => .refl _) (List.Subset.refl _) ?_ ?_
  · intro nobody tends
    have unarmed : chronicle.world.facade.armed = none := by
      cases sound.world.standing with
      | idle _ running armed => exact armed
      | busy found inFlight _ _ _ => exact absurd ⟨_, found, inFlight⟩ (nobody _)
    simp only [Facade.destroy, unarmed, Option.elim_none]
    exact tends.shutdownAll _
  · intro number asked request found inFlight executor purpose pending isExecutor _ tends
    have armed := (sound.world.busy found inFlight).2.2
    simp only [Facade.destroy, armed, isExecutor, Option.elim_some]
    exact tends.destroy.shutdownAll _

/-- A context of a sandbox executor does something. -/
theorem Sound.context (sound : chronicle.Sound config) {executor context : Nat}
    {act : Link.Act SandboxMessage}
    (permitted : chronicle.permits (.context executor context act) = true) :
    Sound { chronicle with
      world := chronicle.world.step (.context executor context act)
      accounts := chronicle.accountAfter (.context executor context act) } config := by
  have keeps := World.keeps_move chronicle.world.host (.context executor context act)
  have later := chronicle.extends_accountAfter (.context executor context act)
  cases at_ : chronicle.world.host.sandboxLink? executor context with
  | none =>
      have same : chronicle.world.step (.context executor context act) = { chronicle.world with
          host := chronicle.world.host } := congrArg (World.mk · _ _) (Host.actContext_of_none at_)
      have kept : chronicle.accountAfter (.context executor context act) =
          chronicle.accounts := by
        funext seat
        simp [accountAfter, at_]
      rw [kept, same]
      exact sound
  | some link =>
      have acted : chronicle.accountAfter (.context executor context act) = fun seat =>
          if seat = .sandbox executor context
          then (chronicle.accounts (.sandbox executor context)).act HostMessage.isRun
            SandboxMessage.utterance link act
          else chronicle.accounts seat := by
        funext seat
        simp only [accountAfter, at_, Option.elim_some]
        split
        · rename_i same
          rw [same]
        · rfl
      rw [acted] at later ⊢
      refine sound.elsewhere keeps (unheard_keeps sound.unheard keeps ?_) later
        (List.Subset.refl _) (fun _ tends => tends.actContext at_ fun called => by contradiction) ?_
      · intro other index nothing
        refine if_neg fun same => ?_
        cases same
        have gone : chronicle.world.host.sandboxes[executor]? = none := by
          have beyond := List.getElem?_eq_none_iff.mp nothing
          exact List.getElem?_eq_none (Nat.le_trans keeps.sandboxes.length_le beyond)
        simp [Host.sandboxLink?, gone] at at_
      · intro number asked request found inFlight caller purpose pending isExecutor enough tends
        refine tends.actContext at_ fun called => ?_
        have covered : chronicle.founded ≤ executor := by
          cases tends with
          | sandbox lends isSandbox passes found tends =>
              cases called
              exact enough _ isSandbox
          | worker found kept tends => contradiction
          | aside lends isAside => cases isAside <;> contradiction
        simpa [permits, covers, covered, at_] using permitted

/-- The interpreter of a worker does something. -/
theorem Sound.interpreter (sound : chronicle.Sound config) {registry handle : Nat}
    {act : Link.Act WorkerMessage}
    (permitted : chronicle.permits (.interpreter registry handle act) = true) :
    Sound { chronicle with
      world := chronicle.world.step (.interpreter registry handle act)
      accounts := chronicle.accountAfter (.interpreter registry handle act) } config := by
  have keeps := World.keeps_move chronicle.world.host (.interpreter registry handle act)
  have later := chronicle.extends_accountAfter (.interpreter registry handle act)
  have elsewhere (other index : Nat) :
      chronicle.accountAfter (.interpreter registry handle act) (.sandbox other index) =
        chronicle.accounts (.sandbox other index) := by simp [accountAfter]
  have duties (duty : Duty) (tends : chronicle.world.host.Tends chronicle.failures
      chronicle.accounts chronicle.world.facade.registry duty) :
      (World.move chronicle.world.host (.interpreter registry handle act)).Tends
        chronicle.failures (chronicle.accountAfter (.interpreter registry handle act))
        chronicle.world.facade.registry duty := by
    by_cases ours : registry = chronicle.world.facade.registry
    · subst ours
      cases at_ : chronicle.world.host.interpreterLink? chronicle.world.facade.registry handle with
      | some link =>
          have acted : chronicle.accountAfter
              (.interpreter chronicle.world.facade.registry handle act) = fun seat =>
                if seat = .interpreter chronicle.world.facade.registry handle
                then (chronicle.accounts (.interpreter chronicle.world.facade.registry handle)).act
                  InterpreterRequest.isRun WorkerMessage.utterance link act
                else chronicle.accounts seat := by
            funext seat
            simp only [accountAfter, at_, Option.elim_some]
            split
            · rename_i same
              rw [same]
            · rfl
          rw [acted]
          exact tends.actInterpreter at_ (by simpa [permits, covers, at_] using permitted)
      | none =>
          have kept : chronicle.accountAfter
              (.interpreter chronicle.world.facade.registry handle act) = chronicle.accounts := by
            funext seat
            simp [accountAfter, at_]
          rw [kept]
          exact tends.actNowhere at_
    · refine (tends.modifyOther ours _).congr (fun _ _ => ⟨rfl, elsewhere _⟩) rfl ?_ rfl
      intro index
      exact if_neg fun same => ours (by cases same; rfl)
  exact sound.elsewhere keeps
    (unheard_keeps sound.unheard keeps fun other index _ => elsewhere other index) later
    (List.Subset.refl _) (fun _ => duties .idle) (fun _ _ _ _ _ _ _ _ _ _ => duties _)

end Steps

/-! ## Launches -/

section Launches

theorem isInFlight_of_sandbox? {future : Future} {executor : Nat}
    (isSandbox : future.sandbox? = some executor) : future.isInFlight = true := by
  cases future with
  | polled asked request => cases request <;> first | rfl | contradiction
  | created asked => contradiction
  | dropped executor => contradiction

/-- The request whose executor has got its context is the author of what it submits. -/
theorem author?_launched {world : World} {number executor : Nat} {future : Future}
    (found : world.futures[number]? = some future) (isSandbox : future.sandbox? = some executor)
    (alone : ∀ other, world.InFlight other → other = number) (launcher call : Nat)
    (launching : Launching) :
    world.author? (.launched launcher launching (.call executor call)) = some number := by
  obtain ⟨inside, isFuture⟩ := List.getElem?_eq_some_iff.mp found
  refine List.findIdx?_eq_some_iff_getElem.mpr ⟨inside, by simp [isFuture, isSandbox], ?_⟩
  intro other before
  have below : other < world.futures.length := Nat.lt_trans before inside
  simp only [decide_eq_true_eq]
  intro same
  have flies : world.InFlight other :=
    ⟨_, List.getElem?_eq_getElem below, isInFlight_of_sandbox? same⟩
  exact absurd (alone other flies) (Nat.ne_of_lt before)

/-- Nothing is submitted to another context than those of the executor that was waiting. -/
theorem accountAfter_launched (chronicle : Chronicle) (launcher : Nat) (launching : Launching)
    (awaiting : Awaiting) {seat : Seat}
    (same : (chronicle.world.step (.launched launcher launching awaiting)).host.codes seat =
      chronicle.world.host.codes seat) :
    chronicle.accountAfter (.launched launcher launching awaiting) seat =
      chronicle.accounts seat := by
  simp only [accountAfter, same, List.drop_length, Account.post_nil]
  cases chronicle.world.author? (.launched launcher launching awaiting) <;> rfl

variable {chronicle : Chronicle} {launcher : Nat} {launching : Launching}

/-- The host after a launch that something waited for. -/
theorem host_launched {awaiting : Awaiting}
    (waits : (chronicle.world.host.launcherOf? awaiting).isSome = true) :
    (chronicle.world.step (.launched launcher launching awaiting)).host =
      chronicle.world.host.deliver launcher launching awaiting := by
  simp only [World.step, World.move, waits, if_true]

/-- The cause why a launch failed is among the failures from then on. -/
theorem mem_failures_launched {awaiting : Awaiting} (cause : TransportError)
    (isCause : launching.outcome = .error cause) :
    cause ∈ chronicle.failures ++ Event.failures (.launched launcher launching awaiting) := by
  simp [Event.failures, isCause]

/-- A duty that does not look at the executor that was waiting is not touched by the launch. -/
theorem tends_launched_of_ne {executor call : Nat}
    (waits : (chronicle.world.host.launcherOf? (.call executor call)).isSome = true) {duty : Duty}
    (uncalled : duty.sandbox? ≠ some executor)
    (tends : chronicle.world.host.Tends chronicle.failures chronicle.accounts
      chronicle.world.facade.registry duty) :
    (chronicle.world.step (.launched launcher launching (.call executor call))).host.Tends
      (chronicle.failures ++ Event.failures (.launched launcher launching (.call executor call)))
      (chronicle.accountAfter (.launched launcher launching (.call executor call)))
      chronicle.world.facade.registry duty := by
  have stepped : (chronicle.world.step (.launched launcher launching (.call executor call))).host =
      chronicle.world.host.deliver launcher launching (.call executor call) := host_launched waits
  rw [stepped]
  refine (tends.mono (List.subset_append_left _ _)).congr ?_ (by rw [Host.registries_deliver]) ?_
    (Host.workers_deliver _ _ _ _ _)
  · intro number isNumber
    have different : number ≠ executor := by
      rintro rfl
      exact uncalled isNumber
    refine ⟨Host.sandboxes_deliver_of_ne _ _ _ different, fun context => ?_⟩
    apply accountAfter_launched
    simp only [stepped, Host.codes, Host.sandboxes_deliver_of_ne _ _ _ different]
  · intro handle
    apply accountAfter_launched
    simp only [stepped, Host.codes, Host.registries_deliver]

/-- The request whose executor was waiting goes on, and what it submits at once is to its
account. -/
theorem tends_launched_call {executor call : Nat}
    (waits : (chronicle.world.host.launcherOf? (.call executor call)).isSome = true)
    {number : Nat} {asked : RunRequest} {request : Request}
    (found : chronicle.world.futures[number]? = some (.polled asked request))
    (alone : ∀ other, chronicle.world.InFlight other → other = number)
    {caller : Executor} (isExecutor : request.executor? = some caller) {purpose : Purpose}
    {index : Nat}
    (tends : chronicle.world.host.Tends chronicle.failures chronicle.accounts
      chronicle.world.facade.registry (.call number caller purpose (.sandbox executor index))) :
    (chronicle.world.step (.launched launcher launching (.call executor call))).host.Tends
      (chronicle.failures ++ Event.failures (.launched launcher launching (.call executor call)))
      (chronicle.accountAfter (.launched launcher launching (.call executor call)))
      chronicle.world.facade.registry (.call number caller purpose (.sandbox executor index)) := by
  have isSandbox : caller.sandbox? = some executor := by
    cases tends with
    | sandbox lends isSandbox passes found tends => exact isSandbox
    | aside lends isAside => contradiction
  have uses : Future.sandbox? (.polled asked request) = some executor := by
    rw [Future.sandbox?, isExecutor, Option.bind_some, isSandbox]
  have author := author?_launched found uses alone launcher call launching
  obtain ⟨accounts, posts, launched⟩ :=
    (tends.mono (List.subset_append_left _ _)).launchedCall waits launcher mem_failures_launched
  have posted : chronicle.accountAfter (.launched launcher launching (.call executor call)) =
      accounts := by
    apply accountAfter_of_posts author
    rw [host_launched waits]
    exact posts
  rw [posted, host_launched waits]
  exact launched

end Launches

section Steps

variable {chronicle : Chronicle} {config : Config} {launcher : Nat} {launching : Launching}

/-- The launch of an interpreter ends. -/
theorem Sound.launchedRelay (sound : chronicle.Sound config) (registry handle : Nat)
    (waits : (chronicle.world.host.launcherOf? (.relay registry handle)).isSome = true) :
    Sound ⟨chronicle.world.step (.launched launcher launching (.relay registry handle)),
      chronicle.founded,
      chronicle.accountAfter (.launched launcher launching (.relay registry handle)),
      chronicle.failures ++
        Event.failures (.launched launcher launching (.relay registry handle))⟩ config := by
  have keeps := World.keeps_move chronicle.world.host
    (.launched launcher launching (.relay registry handle))
  have duties (duty : Duty) (tends : chronicle.world.host.Tends chronicle.failures
      chronicle.accounts chronicle.world.facade.registry duty) :
      (World.move chronicle.world.host
          (.launched launcher launching (.relay registry handle))).Tends
        (chronicle.failures ++
          Event.failures (.launched launcher launching (.relay registry handle)))
        chronicle.accounts chronicle.world.facade.registry duty := by
    simp only [World.move, waits, if_true]
    exact ((tends.mono (List.subset_append_left _ _)).launchedRelay waits mem_failures_launched).calm
      ⟨rfl, rfl, rfl⟩
  exact sound.elsewhere keeps (unheard_keeps sound.unheard keeps fun _ _ _ => rfl)
    (fun _ => .refl _) (List.subset_append_left _ _) (fun _ => duties .idle)
    (fun _ _ _ _ _ _ _ _ _ _ => duties _)

/-- The launch that a call waited for ends. -/
theorem Sound.launchedCall (sound : chronicle.Sound config) (executor call : Nat)
    (waits : (chronicle.world.host.launcherOf? (.call executor call)).isSome = true) :
    Sound ⟨chronicle.world.step (.launched launcher launching (.call executor call)),
      chronicle.founded,
      chronicle.accountAfter (.launched launcher launching (.call executor call)),
      chronicle.failures ++
        Event.failures (.launched launcher launching (.call executor call))⟩ config := by
  have keeps := World.keeps_move chronicle.world.host
    (.launched launcher launching (.call executor call))
  refine sound.elsewhere keeps ?_
    (chronicle.extends_accountAfter (.launched launcher launching (.call executor call)))
    (List.subset_append_left _ _) (fun _ => tends_launched_of_ne waits (by simp [Duty.sandbox?])) ?_
  · refine unheard_keeps sound.unheard keeps fun other context nothing => ?_
    apply accountAfter_launched
    have gone : chronicle.world.host.sandboxes[other]? = none := by
      have beyond := List.getElem?_eq_none_iff.mp nothing
      exact List.getElem?_eq_none (Nat.le_trans keeps.sandboxes.length_le beyond)
    have gone' : (chronicle.world.step
        (.launched launcher launching (.call executor call))).host.sandboxes[other]? = none :=
      nothing
    simp only [Host.codes, gone', gone]
  · intro number asked request found inFlight caller purpose pending isExecutor enough tends
    by_cases called : (Duty.call number caller purpose pending).sandbox? = some executor
    · cases pending with
      | sandbox same index =>
          cases called
          exact tends_launched_call waits found (sound.world.busy found inFlight).1 isExecutor tends
      | worker same index => contradiction
      | toolchain same index => contradiction
      | finished outcome => contradiction
    · exact tends_launched_of_ne waits called tends

/-- A launch ends for which nobody waits. -/
theorem Sound.launchedNobody (sound : chronicle.Sound config) {awaiting : Awaiting}
    (unwaited : (chronicle.world.host.launcherOf? awaiting).isSome = false) :
    Sound ⟨chronicle.world.step (.launched launcher launching awaiting), chronicle.founded,
      chronicle.accountAfter (.launched launcher launching awaiting),
      chronicle.failures ++ Event.failures (.launched launcher launching awaiting)⟩ config := by
  have same : chronicle.world.step (.launched launcher launching awaiting) = chronicle.world := by
    have unmoved : World.move chronicle.world.host (.launched launcher launching awaiting) =
        chronicle.world.host := by
      simp only [World.move, unwaited, Bool.false_eq_true, if_false]
    exact congrArg (World.mk · _ _) unmoved
  have kept : chronicle.accountAfter (.launched launcher launching awaiting) =
      chronicle.accounts := by
    funext seat
    exact accountAfter_launched chronicle launcher launching awaiting (by rw [same])
  rw [same, kept]
  have subset := List.subset_append_left chronicle.failures
    (Event.failures (.launched launcher launching awaiting))
  exact sound.elsewhere (.refl _) sound.unheard (fun _ => .refl _) subset
    (fun _ tends => tends.mono subset) (fun _ _ _ _ _ _ _ _ _ _ tends => tends.mono subset)

/-! ## Isolation -/

/-- Every event keeps a chronicle sound. -/
theorem Sound.step (sound : chronicle.Sound config) (event : Event) :
    (chronicle.step event).Sound config := by
  have untold (uneventful : event.failures = [])
      (told : Sound ⟨chronicle.world.step event, chronicle.founded, chronicle.accountAfter event,
        chronicle.failures⟩ config) :
      Sound ⟨chronicle.world.step event, chronicle.founded, chronicle.accountAfter event,
        chronicle.failures ++ event.failures⟩ config := by
    rw [uneventful, List.append_nil]
    exact told
  have keeps := World.keeps_move chronicle.world.host event
  simp only [Chronicle.step]
  split
  · rename_i permitted
    cases event with
    | make asked => exact untold rfl (sound.make asked)
    | poll receiver number => exact untold rfl (sound.poll receiver number)
    | drop number => exact untold rfl (sound.drop number)
    | provide value =>
        refine untold rfl (sound.aside (chronicle.world.host.keeps_provide _ value)
          fun duty tends => tends.calm ?_)
        cases chronicle.world.facade.broker? chronicle.world.host with
        | none => exact ⟨rfl, rfl, rfl⟩
        | some broker => exact ⟨rfl, rfl, rfl⟩
    | onInput callback =>
        exact untold rfl (sound.aside ((Host.Keeps.refl _).of_eq rfl rfl rfl rfl) fun duty tends =>
          tends.calm ⟨rfl, rfl, rfl⟩)
    | destroy => exact untold rfl sound.destroy
    | launched launcher launching awaiting =>
        cases waits : (chronicle.world.host.launcherOf? awaiting).isSome with
        | false => exact sound.launchedNobody waits
        | true =>
            cases awaiting with
            | call executor call => exact sound.launchedCall executor call waits
            | relay registry handle => exact sound.launchedRelay registry handle waits
    | context executor context act => exact untold rfl (sound.context permitted)
    | interpreter registry handle act => exact untold rfl (sound.interpreter permitted)
    | request registry handle =>
        exact untold rfl (sound.aside keeps fun duty tends => tends.changeHandle
          (fun _ _ => Host.drifts_getD fun _ => Worker.Handle.drifts_turnRequest) registry handle)
    | message registry handle =>
        exact untold rfl (sound.aside keeps fun duty tends => tends.changeHandle
          (fun _ _ => Host.drifts_getD fun _ => Worker.Handle.drifts_turnMessage) registry handle)
    | expire registry start =>
        exact untold rfl (sound.aside keeps fun duty tends => tends.expire registry start)
    | release registry handle =>
        exact untold rfl (sound.aside keeps fun duty tends => tends.changeHandle
          (Worker.Handle.drifts_drop chronicle.failures) registry handle)
  · exact sound

/-- A chronicle is sound after any events. -/
theorem Sound.run (sound : chronicle.Sound config) (events : List Event) :
    (chronicle.run events).Sound config := by
  induction events generalizing chronicle with
  | nil => exact sound
  | cons event events ih => exact ih (sound.step event)

end Steps

/-- Whatever is reported of a request is why it was not run, or came of its own code: all of
the output in it was emitted for that code, or is the host's own. -/
def Isolated (chronicle : Chronicle) (config : Config) : Prop :=
  ∀ (number : Nat) (asked : RunRequest) (report : Report),
    chronicle.world.futures[number]? = some (.polled asked (.finished report)) →
      Answers chronicle.failures chronicle.accounts config number asked report

/-- Whatever happens, requests are kept apart. -/
theorem isolated_run (host : Host) (facade : Facade) (events : List Event) :
    ((fresh host facade).run events).Isolated facade.config :=
  ((sound_fresh host facade).run events).answers

end Chronicle

end Polyglot.Facade

import FirstTree.Lemmas.ClientSwitchPrograms

/-!
# Every login keeps the clients

The specifications of the programs around the moves, up to the login: from a placed store each keeps the files on their way,
whatever the guards answer and wherever it is cut short, and a switch that has its moves ends with the new client active.
-/

namespace FirstTree

open Durable JournaledMoves ClientSwitch ClientSwitchAux

variable {τ : Type}

namespace ClientLoginsAux

variable {f₀ f : SwitchFiles τ} {s t : HomeStore τ} {journal : SwitchJournal} {d : SwitchDirs} {crash : HomeStore τ → Prop}
  {r : LoginRequest} {before : List (ClientOp τ)}

/-- The files that the clients may have come to by some operations and a login. -/
abbrev LoginSteps (before : List (ClientOp τ)) (r : LoginRequest) : SwitchFiles τ → SwitchFiles τ → Prop :=
  ClientSteps (before ++ [.login r])

/-- What a login leaves in between, after some operations. -/
abbrev DuringLogin (before : List (ClientOp τ)) (r : LoginRequest) : SwitchFiles τ → HomeStore τ → Prop :=
  OnTheWayOrTruncated (before ++ [.login r])

/-- What a login leaves at its end, after some operations. -/
abbrev AfterLogin (before : List (ClientOp τ)) (r : LoginRequest) : SwitchFiles τ → HomeStore τ → Prop :=
  OnTheWay (before ++ [.login r])

/-! ## The writes -/

theorem meets_updateJournal {phase : SwitchPhase} {post : Except SwitchError SwitchJournal → HomeStore τ → Prop} :
    (updateJournal journal phase).Meets crash post s ↔
      crash { s with journal := some { journal with phase := phase } } ∧
        post (.ok { journal with phase := phase }) { s with journal := some { journal with phase := phase } } := Iff.rfl

theorem meets_clearSwitchLock {post : Except SwitchError Unit → HomeStore τ → Prop} :
    clearSwitchLock.Meets crash post s ↔
      crash { s with journal := none } ∧ crash { s with journal := none, lock := false } ∧
        post (.ok ()) { s with journal := none, lock := false } := Iff.rfl

theorem meets_setConfigValue {set : ClientYaml τ → ClientYaml τ} {post : Except SwitchError Unit → HomeStore τ → Prop}
    (htruncated : ∀ t, isTruncated t = true → crash t)
    (hcrash : crash { s with files := configuredWith (set (yamlOf (s.files (.active .clientYaml)))) s.files })
    (hpost : post (.ok ()) { s with files := configuredWith (set (yamlOf (s.files (.active .clientYaml)))) s.files }) :
    (setConfigValue set).Meets crash post s :=
  meets_writeClientYaml htruncated hcrash hpost

theorem meets_updateSwitchIndex {a b : LocalClientOwner} {post : Except SwitchError Unit → HomeStore τ → Prop} :
    (updateSwitchIndex a b).Meets crash post s ↔
      crash { s with index := { setClient (setClient s.index a .parked) b .activeRoot with activeClientId := some b.clientId } } ∧
        post (.ok ())
          { s with index := { setClient (setClient s.index a .parked) b .activeRoot with activeClientId := some b.clientId } } :=
            Iff.rfl

/-! ## The moves of a journal -/

/-- The client id that a login may give is the generated one: its environment has none, and no client of the layout has it. -/
structure Fresh (r : LoginRequest) (f : SwitchFiles τ) : Prop where
  environment : r.envClientId = none
  valid : isClientId r.newClientId = true
  unused : ¬ ClientOccurs r.newClientId f

/-- The end of a switch, from its configured client. -/
theorem meets_finish {id : String} {post : Except SwitchError String → HomeStore τ → Prop}
    (hsteps : LoginSteps before r f₀ (configured r id f)) (hbusy : Busy r.newClientId journal s (configured r id f))
    (hmoved : journal.moves ≠ none) (hid : isClientId id = true)
    (hfiles : s.files = configured r id f) (hcredentials : s.credentials = some ⟨some r.userId, r.serverUrl⟩)
    (hclient : (yamlOf (f (.active .clientYaml))).clientId = some id ∨
      (yamlOf (f (.active .clientYaml))).clientId = none ∧ id = r.newClientId)
    (hpost : ∀ t, SwitchedTo r id f t → post (.ok id) t) :
    (do
      updateSwitchIndex journal.from ⟨id, r.userId, r.serverUrl⟩
      let _ ← updateJournal { journal with «to» := { journal.to with clientId := some id } } .complete
      clearSwitchLock
      return id : SwitchProgram τ String).Meets (DuringLogin before r f₀) post s := by
  have hroot : rootClientId (configured r id f) = some id := rootClientId_configuredWith rfl hid f
  let index : SwitchIndex :=
    { setClient (setClient s.index journal.from .parked) ⟨id, r.userId, r.serverUrl⟩ .activeRoot with activeClientId := some id }
  have hset : IndexKnows (setClient (setClient s.index journal.from .parked) ⟨id, r.userId, r.serverUrl⟩ .activeRoot)
      (configured r id f) :=
    IndexKnows.setClient (IndexKnows.setClient hbusy.known hbusy.pending.held) (.inl hroot)
  -- What follows writes the index once, and neither the files nor the credentials nor the generated ids.
  have hindexed : ∀ t : HomeStore τ, t.index = index → t.generated = s.generated → Indexed t (configured r id f) := by
    intro t hindex hgenerated
    refine ⟨hbusy.separate, ?_, hgenerated ▸ hbusy.generated⟩
    rw [hindex]
    exact ⟨hset.defaults, hset.listed⟩
  have howner : ∀ t : HomeStore τ, t.files = s.files → t.index = index →
      readActiveClientOwner t = some ⟨id, r.userId, r.serverUrl⟩ := by
    intro t htfiles hindex
    have hclients : t.index.clients =
        (setClient (setClient s.index journal.from .parked) ⟨id, r.userId, r.serverUrl⟩ .activeRoot).clients := by rw [hindex]
    exact readActiveClientOwner_setClient hclients (by rw [htfiles, hfiles]; exact hroot)
  have hsettled : ∀ t : HomeStore τ, t.files = s.files → t.index = index → t.generated = s.generated → t.credentials = s.credentials →
      (∀ j, t.journal = some j → j.phase = .complete) → DuringLogin before r f₀ t :=
    fun t htfiles hindex hgenerated htcredentials hjournal =>
      .inl ⟨_, hsteps, ClientsSettled.placed ⟨hindexed t hindex hgenerated, htfiles.trans hfiles, hjournal,
        signedIn_of_owner (htcredentials.trans hcredentials) (howner t htfiles hindex)⟩⟩
  simp only [Program.meets_bind, meets_updateSwitchIndex, meets_updateJournal, meets_clearSwitchLock, Program.meets_onOk_ok,
    Program.meets_pure]
  refine ⟨.inl ⟨_, hsteps, Busy.placed ⟨hindexed _ rfl rfl, hbusy.issued, hbusy.written, hbusy.phase, hbusy.pending,
      fun hnone => absurd hnone hmoved⟩⟩,
    hsettled _ rfl rfl rfl rfl ?_, hsettled _ rfl rfl rfl rfl (by simp), hsettled _ rfl rfl rfl rfl (by simp), hpost _ ?_⟩
  · rintro j hj
    obtain rfl := Option.some.inj hj
    rfl
  · exact ⟨hindexed _ rfl rfl, hfiles, rfl, rfl, hcredentials, rfl, howner _ rfl rfl, hclient⟩

/-- A configured `client.yaml` that had its client id. -/
theorem configured_of_some {id : String} (hid : (yamlOf (f (.active .clientYaml))).clientId = some id) :
    configuredWith { yamlOf (f (.active .clientYaml)) with serverUrl := some r.serverUrl } f = configured r id f := by
  rw [configured, ← hid]

/-- A configured `client.yaml` that gets its client id then. -/
theorem configured_twice (yaml : ClientYaml τ) (id : String) :
    configuredWith { yamlOf (f (.active .clientYaml)) with serverUrl := some r.serverUrl, clientId := some id }
      (configuredWith yaml f) = configured r id f := by
  rw [configured, configuredWith, configuredWith, Function.update_idem]

/-- A client id that does not occur is new to a root without one, also once its server is configured. -/
theorem Fresh.configures (h : Fresh r f) (hissued : r.newClientId ∈ s.generated)
    (hnone : (yamlOf (f (.active .clientYaml))).clientId = none) :
    Configures r { yamlOf (f (.active .clientYaml)) with serverUrl := some r.serverUrl, clientId := some r.newClientId } s
      (configuredWith { yamlOf (f (.active .clientYaml)) with serverUrl := some r.serverUrl } f) := by
  refine configures_new (by rw [yamlOf_configuredWith]) rfl (by rwa [yamlOf_configuredWith]) (fun hoccurs => ?_) hissued rfl
  · rcases occurs_of_configure hoccurs with ⟨hid, _⟩ | hbefore
    · rw [hnone] at hid
      cases hid
    · exact h.unused hbefore

/-- The configuration of the client and the end of a switch, once all moves are marked. -/
theorem meets_configureClient {post : Except SwitchError String → HomeStore τ → Prop} (hsteps : LoginSteps before r f₀ f)
    (hbusy : Busy r.newClientId journal s f) (hmade : pendingMoves (journal.moves.getD []) = []) (hmoved : journal.moves ≠ none)
    (hfresh : Fresh r f) (hcredentials : s.credentials = some ⟨some r.userId, r.serverUrl⟩)
    (hpost : ∀ id t, LoginSteps before r f₀ (configured r id f) → SwitchedTo r id f t → post (.ok id) t) :
    (do
      setConfigValue fun yaml => { yaml with serverUrl := some r.serverUrl }
      let clientId ← initConfig r.envClientId r.newClientId
      updateSwitchIndex journal.from ⟨clientId, r.userId, r.serverUrl⟩
      let _ ← updateJournal { journal with «to» := { journal.to with clientId := some clientId } } .complete
      clearSwitchLock
      return clientId : SwitchProgram τ String).Meets (DuringLogin before r f₀) post s := by
  obtain rfl := hbusy.files hmade
  have hserver : Configures r { yamlOf (s.files (.active .clientYaml)) with serverUrl := some r.serverUrl } s s.files :=
    configures_same rfl rfl rfl
  have hconfigured := hbusy.configure hmade hmoved hserver hbusy.pending.valid
  have htruncated : ∀ t : HomeStore τ, isTruncated t = true → DuringLogin before r f₀ t := fun _ => .inr
  rw [Program.meets_bind]
  refine meets_setConfigValue htruncated (.inl ⟨_, hserver.step hsteps, hconfigured.placed⟩) ?_
  rw [Program.meets_onOk_ok, Program.meets_bind, hfresh.environment]
  refine meets_initConfig (yamlOf_configuredWith _ s.files) htruncated (fun e hinvalid => ?_) (fun id hid hvalid => ?_)
    fun hnone => ?_
  · exact absurd ⟨rfl, hbusy.pending.valid⟩ hinvalid
  · have hend := hserver.step hsteps
    rw [configured_of_some hid] at hconfigured hend ⊢
    exact meets_finish hend hconfigured hmoved hvalid rfl hcredentials (.inl hid) fun t ht => hpost id t hend ht
  · have hnew := hfresh.configures (s := s) hbusy.issued hnone
    have hend := hnew.step (hserver.step hsteps)
    have hnamed := hconfigured.configure hmade hmoved ⟨hnew.rest, hnew.server, hnew.kept, hnew.new⟩ (by simpa using hfresh.valid)
    rw [configured_twice] at hend hnamed ⊢
    exact ⟨.inl ⟨_, hend, hnamed.placed⟩,
      meets_finish hend hnamed hmoved hfresh.valid rfl hcredentials (.inr ⟨hnone, rfl⟩) fun t ht => hpost _ t hend ht⟩

/-- A journal with moves is carried out: the files go on their way, and the new client is active at the end. -/
theorem meets_carryOutMoves {post : Except SwitchError String → HomeStore τ → Prop} {moves : List SwitchJournalMove}
    (hsteps : LoginSteps before r f₀ f) (hbusy : Busy r.newClientId journal s f) (hmoves : journal.moves = some moves)
    (hfresh : Fresh r f)
    (hpost : ∀ id t, LoginSteps before r f₀ (configured r id f) → SwitchedTo r id f t → post (.ok id) t) :
    (carryOutMoves d journal r).Meets (DuringLogin before r f₀) post s := by
  have hplaced : ∀ journal t, Busy r.newClientId journal t f → DuringLogin before r f₀ t := fun _ _ h =>
    .inl ⟨f, hsteps, h.placed⟩
  rw [carryOutMoves, Program.meets_bind]
  refine meets_park hbusy hmoves hplaced fun finished restores t hfinished hrestores hbusy => ?_
  rw [Program.meets_onOk_ok, Program.meets_bind, meets_updateJournal, Program.meets_onOk_ok, Program.meets_bind]
  have hparked := hbusy.update (show SwitchPhase.parkedOldClient ≠ .complete by decide)
  refine ⟨hplaced _ _ hparked, meets_restore hparked rfl hfinished hrestores hplaced fun made t hmade hbusy => ?_⟩
  rw [Program.meets_onOk_ok, Program.meets_bind, meets_updateJournal, Program.meets_onOk_ok, Program.meets_write_bind,
    Program.meets_write_bind, Program.meets_bind, meets_updateJournal, Program.meets_onOk_ok]
  have hrestored := hbusy.update (show SwitchPhase.restoredTargetClient ≠ .complete by decide)
  have hremoved := hrestored.credentials (by simp) none
  have hsaved := hremoved.credentials (by simp) (some ⟨some r.userId, r.serverUrl⟩)
  have hwritten := hsaved.update (show SwitchPhase.credentialsWritten ≠ .complete by decide)
  refine ⟨hplaced _ _ hrestored, hplaced _ _ hremoved, hplaced _ _ hsaved, hplaced _ _ hwritten, ?_⟩
  exact meets_configureClient hsteps hwritten hmade (by simp) hfresh rfl hpost

/-! ## The switch -/

/-- A store that a switch has been over in is on its way. -/
theorem SwitchedTo.onTheWay {id : String} (h : SwitchedTo r id f t) (hsteps : LoginSteps before r f₀ (configured r id f)) :
    AfterLogin before r f₀ t :=
  ⟨_, hsteps, ClientsSettled.placed ⟨h.toIndexed, h.files, fun j hj => absurd hj (by simp [h.journal]),
    signedIn_of_owner h.credentials h.owner⟩⟩

/-- Without moves to make, the lock and the journal may go. -/
theorem onTheWay_cleared (hsteps : LoginSteps before r f₀ f) (hindexed : Indexed s f) (hfiles : s.files = f)
    (hsigned : SignedInOwner s) (lock : Bool) : AfterLogin before r f₀ { s with journal := none, lock := lock } :=
  ⟨f, hsteps, ClientsSettled.placed ⟨Indexed.of_same hindexed rfl rfl, hfiles, by simp, hsigned⟩⟩

/-- A journal without moves has none to make. -/
theorem Busy.files_of_isEmpty {newId : String} (h : Busy newId journal s f) (hempty : (journal.moves.getD []).isEmpty = true) :
    s.files = f := by
  refine h.files ?_
  rw [List.isEmpty_iff.mp hempty]
  rfl

/-- A switch that has nothing to move is cleared away, and the login fails. -/
theorem meets_clearAndThrow {post : Except SwitchError String → HomeStore τ → Prop} {e : SwitchError} {newId : String}
    (hsteps : LoginSteps before r f₀ f) (hbusy : Busy newId journal s f) (hempty : (journal.moves.getD []).isEmpty = true)
    (hpost : ∀ result t, AfterLogin before r f₀ t → post result t) :
    (do
      clearSwitchLock
      throw e : SwitchProgram τ String).Meets (DuringLogin before r f₀) post s := by
  have hcleared := onTheWay_cleared hsteps hbusy.toIndexed (Busy.files_of_isEmpty hbusy hempty)
    (hbusy.signedIn (hbusy.moves_eq_none hempty))
  rw [Program.meets_bind, meets_clearSwitchLock, Program.meets_onOk_ok, Program.meets_throw]
  exact ⟨.inl (hcleared s.lock), .inl (hcleared false), hpost _ _ (hcleared false)⟩

/-- A pending switch is completed, or the login fails: for another user, or since nothing had been moved. -/
theorem meets_completePendingSwitchForLogin {post : Except SwitchError String → HomeStore τ → Prop}
    (hsteps : LoginSteps before r f₀ f) (hbusy : Busy r.newClientId journal s f) (hfresh : Fresh r f)
    (hpost : ∀ result t, AfterLogin before r f₀ t → post result t) :
    (completePendingSwitchForLogin d journal r).Meets (DuringLogin before r f₀) post s := by
  refine Program.meets_check_bind (fun e _ => hpost _ s ⟨f, hsteps, hbusy.placed⟩) fun _ _ => ?_
  split
  · rename_i hempty
    exact meets_clearAndThrow hsteps hbusy hempty hpost
  · rename_i hmoves
    cases hsome : journal.moves with
    | none => simp [hsome] at hmoves
    | some moves => exact meets_carryOutMoves hsteps hbusy hsome hfresh fun id t hend ht => hpost _ t (SwitchedTo.onTheWay ht hend)

/-- The lock goes when no file has been moved. -/
theorem meets_abandonSwitch {post : Except SwitchError String → HomeStore τ → Prop} {e : SwitchError} {newId : String}
    (hsteps : LoginSteps before r f₀ f) (hbusy : Busy newId journal s f)
    (hpost : ∀ result t, AfterLogin before r f₀ t → post result t) :
    (abandonSwitch e).Meets (DuringLogin before r f₀) post s := by
  rw [abandonSwitch, Program.meets_read_bind, hbusy.written]
  split
  · rw [Program.meets_throw]
    exact hpost _ s ⟨f, hsteps, hbusy.placed⟩
  · rename_i hmoved
    have hempty : (journal.moves.getD []).isEmpty = true := by
      simp only [journalHasRootMovement, Bool.or_eq_true, not_or, Bool.not_eq_true, Bool.not_eq_false'] at hmoved
      exact hmoved.1
    exact meets_clearAndThrow hsteps hbusy hempty hpost

/-- A journal without moves, as a new switch writes it. -/
theorem busy_of_settled {newId : String} (hsettled : ClientsSettled s f) (hissued : newId ∈ s.generated)
    (hfrom : rootClientId f = some journal.from.clientId) (hphase : journal.phase ≠ .complete) (hmoves : journal.moves = none) :
    Busy newId journal { s with journal := some journal } f where
  toIndexed := Indexed.of_same hsettled.toIndexed rfl rfl
  issued := hissued
  written := rfl
  phase := hphase
  signedIn _ := hsettled.signedIn
  pending := by
    obtain ⟨hyaml, hid⟩ := rootClientId_eq hfrom
    refine ⟨?_, ?_, .inl hfrom, by simpa [hyaml] using hid, by simp [hmoves], by simp [hmoves]⟩
    · rw [hmoves]
      exact underWay_nil.mpr hsettled.files
    · rw [hmoves]
      exact ⟨0, 0, rfl⟩

/-- The journal of a new switch gets its moves: they lead to the layout after the switch. -/
theorem Busy.build {newId : String} {toId : Option String} (h : Busy newId journal s f)
    (hfrom : rootClientId f = some journal.from.clientId)
    (hfiles : s.files = f) (hto : ∀ id, toId = some id → ClientHeld id f) (hnamed : journal.to.clientId = toId) :
    Busy newId { journal with moves := some (buildSwitchMoves journal.from.clientId toId) }
      { s with journal := some { journal with moves := some (buildSwitchMoves journal.from.clientId toId) } }
      (switched journal.from.clientId toId f) where
  separate := separate_switched h.separate hfrom hto
  known := IndexKnows.mono h.known fun _ => held_switched h.separate hfrom hto
  generated id hoccurs := h.generated id (occurs_of_switched h.separate hfrom hto hoccurs)
  issued := h.issued
  written := rfl
  phase := h.phase
  signedIn hnone := by cases hnone
  pending := by
    refine ⟨?_, grouped_build _ _, held_switched h.separate hfrom hto (.inl hfrom), valid_switched h.separate hfrom hto,
      by simp [buildSwitchMoves, switchItems], fun _ id hid => ?_⟩
    · rw [← applyAll_build h.separate hfrom, hfiles]
      exact UnderWay.start (clear_build h.separate hfrom hto)
    · obtain rfl := hnamed.symm.trans hid
      exact (rootClientId_eq (rootClientId_switched h.separate hfrom (hto id rfl))).1

/-- A switch that holds the lock goes on to its end, or fails with a journal to go on from. -/
theorem meets_runSwitch {post : Except SwitchError String → HomeStore τ → Prop} (hsteps : LoginSteps before r f₀ f)
    (hsettled : ClientsSettled s f)
    (hissued : r.newClientId ∈ s.generated) (hfrom : rootClientId f = some journal.from.clientId) (hphase : journal.phase ≠ .complete)
    (hmoves : journal.moves = none) (hfresh : Fresh r f)
    (herror : ∀ e journal t, Busy r.newClientId journal t f → post (.error e) t)
    (hpost : ∀ id t, AfterLogin before r f₀ t → post (.ok id) t) :
    (runSwitch d journal r).Meets (DuringLogin before r f₀) post s := by
  have hplaced : ∀ journal t, Busy r.newClientId journal t f → DuringLogin before r f₀ t := fun _ _ h =>
    .inl ⟨f, hsteps, h.placed⟩
  have hlocked := busy_of_settled hsettled hissued hfrom hphase hmoves
  have hstopped := hlocked.update (show SwitchPhase.serviceStopped ≠ .complete by decide)
  have hdrained := hstopped.update (show SwitchPhase.drainClean ≠ .complete by decide)
  rw [runSwitch, Program.meets_bind, writeJournal, Program.meets_write, Program.meets_onOk_ok]
  refine ⟨hplaced _ _ hlocked, Program.meets_check_bind (fun e _ => herror e _ _ hlocked) fun _ _ => ?_⟩
  rw [Program.meets_bind, meets_updateJournal, Program.meets_onOk_ok]
  refine ⟨hplaced _ _ hstopped, Program.meets_check_bind (fun e _ => herror e _ _ hstopped) fun _ _ => ?_⟩
  refine Program.meets_check_bind (fun e _ => herror e _ _ hstopped) fun _ _ => ?_
  rw [Program.meets_bind, meets_updateJournal, Program.meets_onOk_ok, Program.meets_read_bind]
  let journal' : SwitchJournal := { journal with
    phase := .drainClean
    «to» := { journal.to with clientId := s.index.accountDefaults (accountKey r.serverUrl r.userId) } }
  have htarget : Busy r.newClientId journal' { s with journal := some journal' } f :=
    ⟨Indexed.of_same hsettled.toIndexed rfl rfl, hissued, rfl, hdrained.phase, ⟨hdrained.pending.underWay, hdrained.pending.grouped,
      hdrained.pending.held, hdrained.pending.valid, hdrained.pending.nonempty, fun hmoved => absurd hmoves hmoved⟩,
        fun _ => hsettled.signedIn⟩
  have hto : ∀ id, s.index.accountDefaults (accountKey r.serverUrl r.userId) = some id → ClientHeld id f :=
    hsettled.known.defaults _
  have hbuilt := Busy.build htarget hfrom hsettled.files hto rfl
  have hswitched := hsteps.step (.switch r f journal.from.clientId _ hfrom hto)
  have hfresh' : Fresh r (switched journal.from.clientId (s.index.accountDefaults (accountKey r.serverUrl r.userId)) f) :=
    ⟨hfresh.environment, hfresh.valid, fun h => hfresh.unused (occurs_of_switched hsettled.separate hfrom hto h)⟩
  refine ⟨hplaced _ _ hdrained, hplaced _ _ htarget, .inl ⟨_, hswitched, hbuilt.placed⟩, ?_⟩
  exact meets_carryOutMoves hswitched hbuilt rfl hfresh' fun id t hend ht => hpost _ t (SwitchedTo.onTheWay ht hend)

/-- A new switch. -/
theorem meets_startSwitch {post : Except SwitchError String → HomeStore τ → Prop} {previous : Option (String × String)}
    (hsteps : LoginSteps before r f₀ f) (hsettled : ClientsSettled s f) (hissued : r.newClientId ∈ s.generated) (hfresh : Fresh r f)
    (hpost : ∀ result t, AfterLogin before r f₀ t → post result t) :
    (startSwitch d previous r).Meets (DuringLogin before r f₀) post s := by
  have hhere : AfterLogin before r f₀ s := ⟨f, hsteps, hsettled.placed⟩
  cases previous with
  | none => exact hpost _ s hhere
  | some previous =>
    rw [startSwitch, Program.meets_read_bind, hsettled.files]
    cases hfrom : rootClientId f with
    | none => exact hpost _ s hhere
    | some oldClientId =>
      have hlocked : ClientsSettled { s with lock := true } f := ⟨Indexed.of_same hsettled.toIndexed rfl rfl, hsettled.files,
        hsettled.journal, hsettled.signedIn⟩
      show (acquireSwitchLock >>= fun _ => tryCatch (runSwitch d _ r) abandonSwitch).Meets (DuringLogin before r f₀) post s
      rw [acquireSwitchLock, Program.meets_bind, Program.meets_read_bind]
      refine Program.meets_check_bind (fun e _ => hpost _ s hhere) fun _ _ => ⟨.inl ⟨f, hsteps, hlocked.placed⟩, ?_⟩
      show (tryCatch (runSwitch d _ r) abandonSwitch).Meets (DuringLogin before r f₀) post _
      rw [Program.meets_tryCatch]
      exact meets_runSwitch hsteps hlocked hissued hfrom (show SwitchPhase.locked ≠ .complete by decide) rfl hfresh
        (fun e journal t hbusy => meets_abandonSwitch hsteps hbusy hpost) fun id => hpost (.ok id)

/-- A pending journal of a placed store. -/
theorem busy_of_placed {newId : String} (hplaced : ClientsPlaced s f) (hissued : newId ∈ s.generated)
    (hjournal : s.journal = some journal) (hphase : journal.phase ≠ .complete) : Busy newId journal s f where
  toIndexed := hplaced.toIndexed
  issued := hissued
  written := hjournal
  phase := hphase
  pending := hplaced.pending journal hjournal hphase
  signedIn hnone := hplaced.signedIn fun j hj => by
    obtain rfl := Option.some.inj (hjournal.symm.trans hj)
    exact .inr hnone

/-- A switch for a login, which goes on with a pending one. -/
theorem meets_switchLocalClientForLogin {post : Except SwitchError String → HomeStore τ → Prop} {previous : Option (String × String)}
    (hsteps : LoginSteps before r f₀ f) (hplaced : ClientsPlaced s f) (hissued : r.newClientId ∈ s.generated) (hfresh : Fresh r f)
    (hpost : ∀ result t, AfterLogin before r f₀ t → post result t) :
    (switchLocalClientForLogin d previous r).Meets (DuringLogin before r f₀) post s := by
  refine Program.meets_check_bind (fun e _ => hpost _ s ⟨f, hsteps, hplaced⟩) fun _ _ => ?_
  rw [Program.meets_read_bind]
  cases hjournal : s.journal with
  | none =>
    exact meets_startSwitch hsteps (ClientsPlaced.toSettled hplaced (by simp [hjournal])) hissued hfresh hpost
  | some journal =>
    by_cases hphase : journal.phase = .complete
    · have hcomplete : ∀ j, s.journal = some j → j.phase = .complete := by
        intro j hj
        obtain rfl := Option.some.inj (hjournal.symm.trans hj)
        exact hphase
      have hsettled := ClientsPlaced.toSettled hplaced hcomplete
      have hcleared := onTheWay_cleared hsteps hsettled.toIndexed hsettled.files hsettled.signedIn
      simp only [if_pos hphase, Program.meets_bind, meets_clearSwitchLock, Program.meets_onOk_ok]
      exact ⟨.inl (hcleared s.lock), .inl (hcleared false),
        meets_startSwitch hsteps ⟨Indexed.of_same hsettled.toIndexed rfl rfl,
          hsettled.files, by simp, hsettled.signedIn⟩ hissued hfresh hpost⟩
    · simp only [if_neg hphase]
      exact meets_completePendingSwitchForLogin hsteps (busy_of_placed hplaced hissued hjournal hphase) hfresh hpost

/-! ## The login -/

/-- The active client is recorded for its account; its id is in the root already. -/
theorem meets_recordOwner {post : Except SwitchError Unit → HomeStore τ → Prop} {id : String} (hsteps : LoginSteps before r f₀ f)
    (hsettled : ClientsSettled s f) (hroot : rootClientId f = some id)
    (hcredentials : s.credentials = some ⟨some r.userId, r.serverUrl⟩)
    (hpost : ∀ result t, AfterLogin before r f₀ t → post result t) :
    (do
      ensureActiveRootClientIdPersisted id
      recordActiveClientOwner ⟨id, r.userId, r.serverUrl⟩ : SwitchProgram τ Unit).Meets (DuringLogin before r f₀) post s := by
  have hroot' : rootClientId s.files = some id := by rw [hsettled.files, hroot]
  have hskip : ¬ (isClientId id = true ∧ rootClientId s.files = none) := by simp [hroot']
  rw [Program.meets_bind, ensureActiveRootClientIdPersisted, Program.meets_read_bind, if_neg hskip, Program.meets_pure,
    Program.meets_onOk_ok, recordActiveClientOwner, Program.meets_write]
  have hset : IndexKnows (setClient (parkOthers s.index id) ⟨id, r.userId, r.serverUrl⟩ .activeRoot) f :=
    IndexKnows.setClient (IndexKnows.parkOthers hsettled.known id) (.inl hroot)
  have hrecorded : ClientsSettled { s with index :=
      { setClient (parkOthers s.index id) ⟨id, r.userId, r.serverUrl⟩ .activeRoot with activeClientId := some id } } f :=
    ⟨⟨hsettled.separate, ⟨hset.defaults, hset.listed⟩, hsettled.generated⟩, hsettled.files, hsettled.journal,
      signedIn_of_owner hcredentials (readActiveClientOwner_setClient rfl hroot')⟩
  have hend : AfterLogin before r f₀ { s with index :=
      { setClient (parkOthers s.index id) ⟨id, r.userId, r.serverUrl⟩ .activeRoot with activeClientId := some id } } :=
    ⟨f, hsteps, hrecorded.placed⟩
  exact ⟨.inl hend, hpost _ _ hend⟩

/-- A login without a switch configures the active client, whose remembered owner is the user. -/
theorem meets_loginWithoutSwitch {post : Except SwitchError Unit → HomeStore τ → Prop} (hsteps : LoginSteps before r f₀ f)
    (hsettled : ClientsSettled s f) (hissued : r.newClientId ∈ s.generated) (hfresh : Fresh r f)
    (hremembered : ∀ owner, readActiveClientOwner s = some owner → owner.userId = r.userId)
    (hpost : ∀ result t, AfterLogin before r f₀ t → post result t) :
    (loginWithoutSwitch r).Meets (DuringLogin before r f₀) post s := by
  obtain rfl := hsettled.files
  have hserver : Configures r { yamlOf (s.files (.active .clientYaml)) with serverUrl := some r.serverUrl } s s.files :=
    configures_same rfl rfl rfl
  have hend := hserver.step hsteps
  -- The server is configured: the client id of the root stays.
  have hsame : rootClientId (configuredWith { yamlOf (s.files (.active .clientYaml)) with serverUrl := some r.serverUrl } s.files) =
      rootClientId s.files := rootClientId_configure _ _
  have hconfigured := hsettled.configure hserver fun c owner hc ho =>
    hsettled.signedIn c owner hc ((readActiveClientOwner_congr hsame rfl).symm.trans ho)
  have htruncated : ∀ t : HomeStore τ, isTruncated t = true → DuringLogin before r f₀ t := fun _ => .inr
  have hsaved : ClientsSettled { s with
      files := configuredWith { yamlOf (s.files (.active .clientYaml)) with serverUrl := some r.serverUrl } s.files
      credentials := some ⟨some r.userId, r.serverUrl⟩ }
      (configuredWith { yamlOf (s.files (.active .clientYaml)) with serverUrl := some r.serverUrl } s.files) := by
    refine ⟨Indexed.of_same hconfigured.toIndexed rfl rfl, rfl, hconfigured.journal, fun c owner hc ho => ?_⟩
    obtain rfl := Option.some.inj hc
    rw [hremembered owner ((readActiveClientOwner_congr hsame rfl).symm.trans ho)]
  rw [loginWithoutSwitch, Program.meets_bind]
  refine meets_setConfigValue htruncated (.inl ⟨_, hend, hconfigured.placed⟩) ?_
  rw [Program.meets_onOk_ok, Program.meets_write_bind, Program.meets_bind, hfresh.environment]
  refine ⟨.inl ⟨_, hend, hsaved.placed⟩, ?_⟩
  refine meets_initConfig (yamlOf_configuredWith _ s.files) htruncated (fun e _ => hpost _ _ ⟨_, hend, hsaved.placed⟩)
    (fun id hid hvalid => ?_) fun hnone => ?_
  · exact meets_recordOwner hend hsaved (rootClientId_configuredWith hid hvalid s.files) rfl hpost
  · have hnew := hfresh.configures hissued hnone
    have hroot : ∀ g : SwitchFiles τ, rootClientId (configuredWith
        { yamlOf (s.files (.active .clientYaml)) with serverUrl := some r.serverUrl, clientId := some r.newClientId } g) =
          some r.newClientId := rootClientId_configuredWith rfl hfresh.valid
    -- The index has no client of the new id, so there is no remembered owner.
    have hunlisted : s.index.clients r.newClientId = none := by
      cases hentry : s.index.clients r.newClientId with
      | none => rfl
      | some entry => exact absurd (ClientHeld.occurs (hsettled.known.listed _ entry hentry)) hfresh.unused
    have hnamed := hsaved.configure ⟨hnew.rest, hnew.server, hnew.kept, hnew.new⟩ fun c owner _ ho => by
      simp [readActiveClientOwner, hroot, hunlisted] at ho
    have hend' := hnew.step hend
    exact ⟨.inl ⟨_, hend', hnamed.placed⟩, meets_recordOwner hend' hnamed (hroot _) rfl hpost⟩

/-- A switch is gone on with, or none is pending. -/
theorem meets_recoverSwitch {post : Except SwitchError (Option String) → HomeStore τ → Prop} (hsteps : LoginSteps before r f₀ f)
    (hplaced : ClientsPlaced s f) (hissued : r.newClientId ∈ s.generated) (hfresh : Fresh r f)
    (herror : ∀ e t, AfterLogin before r f₀ t → post (.error e) t) (hsome : ∀ id t, AfterLogin before r f₀ t → post (.ok (some id)) t)
    (hnone : ClientsSettled s f → post (.ok none) s) : (recoverSwitch d r).Meets (DuringLogin before r f₀) post s := by
  rw [recoverSwitch, Program.meets_read_bind]
  split
  · rw [Program.meets_bind]
    refine meets_switchLocalClientForLogin hsteps hplaced hissued hfresh fun result t ht => ?_
    cases result with
    | error e => exact herror e t ht
    | ok id => exact hsome id t ht
  · rename_i hincomplete
    have hcomplete : ∀ journal, s.journal = some journal → journal.phase = .complete := by
      intro journal hjournal
      by_contra hphase
      exact hincomplete (hasIncompleteClientSwitch_of_journal hjournal hphase)
    exact hnone (ClientsPlaced.toSettled hplaced hcomplete)

/-- An account is switched, or none is to be. -/
theorem meets_switchAccount {post : Except SwitchError (Option String) → HomeStore τ → Prop} {previous : Option (String × String)}
    (hsteps : LoginSteps before r f₀ f) (hsettled : ClientsSettled s f) (hissued : r.newClientId ∈ s.generated) (hfresh : Fresh r f)
    (herror : ∀ e t, AfterLogin before r f₀ t → post (.error e) t) (hsome : ∀ id t, AfterLogin before r f₀ t → post (.ok (some id)) t)
    (hnone : previous = none → post (.ok none) s) : (switchAccount d previous r none).Meets (DuringLogin before r f₀) post s := by
  cases previous with
  | none => exact hnone rfl
  | some previous =>
    refine Program.meets_check_bind (fun e _ => herror e s ⟨f, hsteps, hsettled.placed⟩) fun _ _ => ?_
    rw [Program.meets_bind]
    refine meets_switchLocalClientForLogin hsteps hsettled.placed hissued hfresh fun result t ht => ?_
    cases result with
    | error e => exact herror e t ht
    | ok id => exact hsome id t ht

/-- A login that switches from no account is one of the remembered owner. -/
theorem owner_of_switchFrom_eq_none {existing : Option SwitchCredentials} {remembered : Option LocalClientOwner}
    (h : switchFrom existing remembered r = none) {owner : LocalClientOwner} (howner : remembered = some owner) :
    owner.userId = r.userId := by
  unfold switchFrom at h
  split at h
  · cases h
  · by_contra hne
    simp [howner, hne] at h

/-- A login keeps the clients. -/
theorem meets_login {post : Except SwitchError Unit → HomeStore τ → Prop} (hsteps : LoginSteps before r f₀ f)
    (hplaced : ClientsPlaced s f)
    (hissued : r.newClientId ∈ s.generated) (hfresh : Fresh r f) (hpost : ∀ result t, AfterLogin before r f₀ t → post result t) :
    (login d r).Meets (DuringLogin before r f₀) post s := by
  rw [login, Program.meets_read_bind, Program.meets_read_bind, Program.meets_read_bind]
  refine Program.meets_check_bind (fun e _ => hpost _ s ⟨f, hsteps, hplaced⟩) fun _ _ => ?_
  rw [Program.meets_bind]
  refine meets_recoverSwitch hsteps hplaced hissued hfresh (fun e t ht => hpost _ t ht) (fun id t ht => ?_) fun hsettled => ?_
  · rw [Program.meets_onOk_ok, switchAccount, Program.meets_bind, Program.meets_pure, Program.meets_onOk_ok]
    exact Program.meets_check_bind (fun e _ => hpost _ t ht) fun _ _ => hpost _ t ht
  · rw [Program.meets_onOk_ok, Program.meets_bind]
    refine meets_switchAccount hsteps hsettled hissued hfresh (fun e t ht => hpost _ t ht) (fun id t ht => ?_) fun hprevious => ?_
    · exact Program.meets_check_bind (fun e _ => hpost _ t ht) fun _ _ => hpost _ t ht
    · exact Program.meets_check_bind (fun e _ => hpost _ s ⟨f, hsteps, hplaced⟩) fun _ _ =>
        meets_loginWithoutSwitch hsteps hsettled hissued hfresh (fun _ howner => owner_of_switchFrom_eq_none hprevious howner) hpost

/-- Another generated id keeps a store placed. -/
theorem placed_generated (h : ClientsPlaced s f) (id : String) : ClientsPlaced { s with generated := id :: s.generated } f :=
  ⟨⟨h.separate, h.known, fun _ hid => List.mem_cons_of_mem _ (h.generated _ hid)⟩, h.signedIn, h.settled, h.pending⟩

/-- The client id that a login may give is fresh: the ids that occur have been generated before. -/
theorem fresh_of_admits (h : ClientsPlaced s f) (henv : r.envClientId = none)
    (hadmits : (ClientOp.login r : ClientOp τ).admits s = true) : Fresh r f := by
  simp only [ClientOp.admits, Bool.and_eq_true, decide_eq_true_eq] at hadmits
  exact ⟨henv, hadmits.1, fun hoccurs => hadmits.2 (h.generated _ hoccurs)⟩

/-- Without moves to make, the files are those of the layout. -/
theorem ClientsPlaced.files_of_unmoved (h : ClientsPlaced s f)
    (hunmoved : ∀ journal, s.journal = some journal → journal.phase = .complete ∨ journal.moves = none) : s.files = f := by
  by_cases hcomplete : ∀ journal, s.journal = some journal → journal.phase = .complete
  · exact h.settled hcomplete
  · push Not at hcomplete
    obtain ⟨journal, hjournal, hphase⟩ := hcomplete
    have hunder := (h.pending journal hjournal hphase).underWay
    rw [(hunmoved journal hjournal).resolve_left hphase] at hunder
    exact underWay_nil.mp hunder

/-- Work of the active client, where no journal has moves to make, keeps a store placed. -/
theorem ClientsPlaced.work {item : SwitchItem} (h : ClientsPlaced s f) (hitem : item ≠ .clientYaml) (file : Option (SwitchFile τ))
    (hunmoved : ∀ journal, s.journal = some journal → journal.phase = .complete ∨ journal.moves = none) :
    ClientsPlaced { s with files := Function.update s.files (.active item) file } (Function.update f (.active item) file) where
  separate := separate_work h.separate hitem file
  known := IndexKnows.mono h.known fun _ => (held_work hitem file).mpr
  generated id hoccurs := h.generated id ((occurs_work hitem file).mp hoccurs)
  signedIn _ c owner hc ho := by
    have hsame : readActiveClientOwner { s with files := Function.update s.files (.active item) file } = readActiveClientOwner s :=
      readActiveClientOwner_congr (rootClientId_work hitem s.files file) rfl
    exact h.signedIn hunmoved c owner hc (hsame.symm.trans ho)
  settled _ := by rw [ClientsPlaced.files_of_unmoved h hunmoved]
  pending journal hjournal hphase := by
    have hmoves := (hunmoved journal hjournal).resolve_left hphase
    have hpending := h.pending journal hjournal hphase
    refine ⟨?_, hpending.grouped, (held_work hitem file).mpr hpending.held, ?_, hpending.nonempty, fun hmoved => absurd hmoves hmoved⟩
    · rw [hmoves, ClientsPlaced.files_of_unmoved h hunmoved]
      exact underWay_nil.mpr rfl
    · rw [Function.update_of_ne (by simpa using hitem.symm)]
      exact hpending.valid

/-- Whatever is done on a computer keeps the clients, when its environment has no client id. -/
theorem meets_program (op : ClientOp τ) (hadmits : op.admits s = true) (henv : ∀ r, op = .login r → r.envClientId = none)
    (h : OnTheWay before f₀ s) :
    (op.program d).Meets (OnTheWayOrTruncated (before ++ [op]) f₀) (fun _ => OnTheWay (before ++ [op]) f₀) s := by
  obtain ⟨f, hsteps, hplaced⟩ := h
  have hsteps := hsteps.next op
  cases op with
  | login r =>
    have hplaced' := placed_generated hplaced r.newClientId
    have hfresh := fresh_of_admits hplaced (henv r rfl) hadmits
    rw [ClientOp.program, Program.meets_write_bind]
    exact ⟨.inl ⟨f, hsteps, hplaced'⟩, meets_login hsteps hplaced' List.mem_cons_self hfresh fun _ _ ht => ht⟩
  | work item file =>
    simp only [ClientOp.admits, Bool.and_eq_true, decide_eq_true_eq, Option.all_eq_true, Bool.or_eq_true,
      Option.isNone_iff_eq_none] at hadmits
    have hend : OnTheWay (before ++ [.work item file]) f₀ { s with files := Function.update s.files (.active item) file } :=
      ⟨_, hsteps.step (.work f item file hadmits.1), ClientsPlaced.work hplaced hadmits.1 file hadmits.2⟩
    exact ⟨.inl hend, hend⟩

/-! ## The next login -/

/-- A pending switch that has its moves is gone on with for its user, to its end. -/
theorem meets_recoverSwitch_pending {post : Except SwitchError (Option String) → HomeStore τ → Prop}
    (hsteps : LoginSteps before r f₀ f)
    (hbusy : Busy r.newClientId journal s f) (hfresh : Fresh r f) (hmoves : journal.moves.getD [] ≠ [])
    (huser : journal.to.userId = r.userId) (hserver : journal.to.serverUrl = r.serverUrl) (hguard : r.guards.accountState = .ok ())
    (hpost : ∀ id t, SwitchedTo r id f t → post (.ok (some id)) t) : (recoverSwitch d r).Meets (DuringLogin before r f₀) post s := by
  have hincomplete := hasIncompleteClientSwitch_of_journal hbusy.written hbusy.phase
  obtain ⟨moves, hsome⟩ : ∃ moves, journal.moves = some moves := by
    cases hm : journal.moves with
    | none => simp [hm] at hmoves
    | some moves => exact ⟨moves, rfl⟩
  have hempty : ¬ (journal.moves.getD []).isEmpty = true := by simpa using hmoves
  have hsame : ¬ (journal.to.userId ≠ r.userId ∨ journal.to.serverUrl ≠ r.serverUrl) := by simp [huser, hserver]
  rw [recoverSwitch, Program.meets_read_bind, if_pos hincomplete, Program.meets_bind,
    switchLocalClientForLogin, hguard]
  refine Program.meets_check_bind (fun e he => absurd he (by simp)) fun _ _ => ?_
  rw [Program.meets_read_bind, hbusy.written]
  simp only [if_neg hbusy.phase]
  rw [completePendingSwitchForLogin, if_neg hsame]
  refine Program.meets_check_bind (fun e he => absurd he (by simp)) fun _ _ => ?_
  rw [if_neg hempty]
  exact meets_carryOutMoves hsteps hbusy hsome hfresh fun id t _ ht => hpost id t ht

/-- The next login of its user goes on with a pending switch that has its moves, and ends with the client that the journal names. -/
theorem meets_login_pending (hsteps : LoginSteps before r f₀ f) (hplaced : ClientsPlaced s f) (hissued : r.newClientId ∈ s.generated)
    (hfresh : Fresh r f) (hjournal : s.journal = some journal) (hphase : journal.phase ≠ .complete)
    (hmoves : journal.moves.getD [] ≠ [])
    (huser : journal.to.userId = r.userId) (hserver : journal.to.serverUrl = r.serverUrl) (hguard : r.guards.accountState = .ok ())
    (howner : ∀ c, s.credentials = some c → c.ownerSub.isSome = true) :
    (login d r).Meets (DuringLogin before r f₀) (fun result t =>
      ∃ id, SwitchedTo r id f t ∧ (∀ id', journal.to.clientId = some id' → id = id') ∧
        (s.credentials.isSome = true → result = .ok ())) s := by
  have hbusy := busy_of_placed hplaced hissued hjournal hphase
  have hmoved : journal.moves ≠ none := fun hnone => hmoves (by rw [hnone]; rfl)
  have hknown : ¬ (s.credentials.any fun c => c.ownerSub.isNone) = true := by
    rw [Option.any_eq_true]
    rintro ⟨c, hc, hnone⟩
    rw [Option.isNone_iff_eq_none] at hnone
    exact absurd (howner c hc) (by simp [hnone])
  rw [login, Program.meets_read_bind, Program.meets_read_bind, Program.meets_read_bind, if_neg hknown]
  refine Program.meets_check_bind (fun e he => absurd he (by simp)) fun _ _ => ?_
  rw [Program.meets_bind]
  refine meets_recoverSwitch_pending hsteps hbusy hfresh hmoves huser hserver hguard fun id t ht => ?_
  have hnamed : ∀ id', journal.to.clientId = some id' → id = id' := by
    intro id' hid'
    have hyaml := hbusy.pending.named hmoved id' hid'
    rcases ht.clientId with hid | ⟨hnone, _⟩
    · exact Option.some.inj (hid.symm.trans hyaml)
    · rw [hyaml] at hnone
      cases hnone
  rw [Program.meets_onOk_ok, switchAccount, Program.meets_bind, Program.meets_pure, Program.meets_onOk_ok]
  refine Program.meets_check_bind (fun e he => ⟨id, ht, hnamed, fun hcredentials => ?_⟩) fun _ _ => ⟨id, ht, hnamed, fun _ => rfl⟩
  rw [Option.isSome_iff_exists] at hcredentials
  obtain ⟨c, hc⟩ := hcredentials
  simp [hc] at he

end ClientLoginsAux

end FirstTree

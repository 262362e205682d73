import FirstTree.Client.ClientSwitch
import FirstTree.Lemmas.ClientLogins
import FirstTree.Lemmas.ClientSwitch
import FirstTree.Lemmas.ClientSwitchPrograms
import FirstTree.Lib.DurablePrograms
import FirstTree.Lib.Runs

/-!
# Runs of the local clients

In every run of logins and work on a computer, with crashes between the steps, no file of a client is lost, doubled or mixed with
another's: the files are those of a layout that the clients have come to by the work of the run and by being switched as a whole, or a
pending journal leads there. The next login of its user goes on with such a switch, to its end.
-/

namespace FirstTree

open Runs Durable ClientSwitch ClientSwitchAux ClientLoginsAux

variable {τ : Type} {d : SwitchDirs}

/-- A computer with its store and what its process has left to do. -/
abbrev Computer (τ : Type) := Host (ClientOp τ) (HomeStore τ) SwitchError

/-- What can happen to a computer. -/
abbrev ComputerEvent (τ : Type) := Event (ClientOp τ)

/-- What the runs are restricted to: no crash comes while `client.yaml` is truncated, and no login begins with a client id in its
environment. -/
def Regular : Computer τ → ComputerEvent τ → Prop
  | h, .crash => isTruncated h.store = false
  | _, .begin (.login r) => r.envClientId = none
  | _, _ => True

instance : (h : Computer τ) → (e : ComputerEvent τ) → Decidable (Regular h e)
  | h, .crash => inferInstanceAs (Decidable (isTruncated h.store = false))
  | _, .begin (.login r) => inferInstanceAs (Decidable (r.envClientId = none))
  | _, .begin (.work _ _) => .isTrue trivial
  | _, .recover => .isTrue trivial
  | _, .step => .isTrue trivial

namespace ClientLoginsAux

/-- The programs of a computer keep the files on their way. -/
theorem keeps_onTheWay (f₀ : SwitchFiles τ) :
    Keeps (clientComputer τ d) Regular (fun ops => OnTheWay ops f₀) (fun s => isTruncated s = true) where
  spared h hguard hbad := by
    rw [Regular, hbad] at hguard
    cases hguard
  operation ops h op hguard hadmits hs := meets_program op hadmits (fun r hr => by subst hr; exact hguard) hs
  recovery _ _ hs := hs

/-- In every run from a placed store, the files are on their way to a layout that the clients have come to by what has begun. -/
theorem onTheWay_of_run {h h' : Computer τ} {es : List (ComputerEvent τ)} (hidle : h.process = none)
    (hstart : ClientsPlaced h.store h.store.files) (hr : Run (Guarded Regular (ofPartial (clientComputer τ d).step)) h es h')
    (hwritten : h'.process = none ∨ isTruncated h'.store = false) :
    OnTheWay (es.flatMap Event.begun) h.store.files h'.store := by
  have hkept : OnTheWay [] h.store.files h.store := ⟨_, .start _, hstart⟩
  exact store_of_run (keeps_onTheWay h.store.files) hidle hkept hr (hwritten.imp_right fun h => by simp [h])

end ClientLoginsAux

namespace ClientSwitchExample

/-- The files of a client: its `client.yaml` and its workspaces. -/
def fileOf (clientId : String) (workspaces : Nat) : SwitchItem → Option (SwitchFile Nat)
  | .clientYaml => some (.clientYaml ⟨some clientId, some "s", none⟩)
  | .workspaces => some (.other workspaces)
  | _ => none

/-- One client is active, and one is parked. -/
def files : SwitchFiles Nat
  | .active item => fileOf "client_aaaaaaaa" 1 item
  | .parked id item => if id = "client_bbbbbbbb" then fileOf "client_bbbbbbbb" 2 item else none

/-- The store of the clients, signed in as the first account. -/
def store : HomeStore Nat where
  files := files
  lock := false
  journal := none
  credentials := some ⟨some "u", "s"⟩
  index :=
    { activeClientId := some "client_aaaaaaaa"
      accountDefaults := fun key => if key = accountKey "s" "v" then some "client_bbbbbbbb" else none
      clients := fun _ => none }
  generated := ["client_aaaaaaaa", "client_bbbbbbbb"]

/-- Guards that let a switch pass. -/
def guards : SwitchGuards := ⟨.ok (), .ok (), .ok (), .ok ()⟩

/-- A login of the second account. -/
def request (newClientId : String) : LoginRequest := ⟨"s", "v", .ok (), none, newClientId, guards⟩

/-- The names in the messages. -/
def dirs : SwitchDirs := ⟨"/h", "/h/config", "/h/data", "first-tree"⟩

/-- A login that crashes between two moves, after the rename of the one and before its mark. -/
def interrupted : List (ComputerEvent Nat) :=
  Event.begin (ClientOp.login (request "client_cccccccc")) :: List.replicate 17 Event.step ++ [Event.crash]

/-- The login, and the next one, which goes on with the switch to its end. -/
def resumed : List (ComputerEvent Nat) :=
  interrupted ++ Event.begin (ClientOp.login (request "client_dddddddd")) :: List.replicate 20 Event.step

/-- What stands where, of the items that the clients have. -/
def standing (f : SwitchFiles Nat) : List (Option String × Option Nat) :=
  [SwitchPath.active, .parked "client_aaaaaaaa", .parked "client_bbbbbbbb"].map fun root =>
    ((yamlOf (f (root .clientYaml))).clientId,
      match f (root .workspaces) with
      | some (.other workspaces) => some workspaces
      | _ => none)

/-- What a run leaves: the clients with their workspaces, the phase and the pending moves of the journal, and whether a process
runs. -/
structure Outcome where
  standing : List (Option String × Option Nat)
  journal : Option (SwitchPhase × Nat)
  lock : Bool
  idle : Bool
  deriving DecidableEq

/-- A run that is regular, to its end. -/
def regularRun (es : List (ComputerEvent Nat)) : Option (Computer Nat) :=
  es.foldlM (fun h e => if Regular h e then (clientComputer Nat dirs).step h e else none) ⟨store, none, none⟩

/-- The outcome of a run. -/
def outcome (h : Computer Nat) : Outcome :=
  ⟨standing h.store.files, h.store.journal.map fun j => (j.phase, (pendingMoves (j.moves.getD [])).length), h.store.lock,
    h.process.isNone⟩

/-- The login has been cut short before the mark of a move that is made. -/
theorem interrupted_ends : (regularRun interrupted).map outcome =
    some ⟨[(some "client_bbbbbbbb", none), (some "client_aaaaaaaa", some 1), (none, some 2)], some (.parkedOldClient, 7),
      true, true⟩ := by
  decide +kernel

/-- The next login leaves both clients whole, the second one active. -/
theorem resumed_ends : (regularRun resumed).map outcome =
    some ⟨[(some "client_bbbbbbbb", some 2), (some "client_aaaaaaaa", some 1), (none, none)], none, false, true⟩ := by
  decide +kernel

/-- What the next login finds: the phase and the account of the journal, whether it has moves, whether the login may begin, whether
the credentials have their owner, and whether no process runs. -/
structure Found where
  phase : SwitchPhase
  userId : String
  serverUrl : String
  moved : Bool
  admitted : Bool
  owned : Bool
  idle : Bool
  deriving DecidableEq

/-- What a login finds at a computer with a journal. -/
def found (h : Computer Nat) (r : LoginRequest) (journal : SwitchJournal) : Found :=
  ⟨journal.phase, journal.to.userId, journal.to.serverUrl, !(journal.moves.getD []).isEmpty, (ClientOp.login r).admits h.store,
    h.store.credentials.all fun c => c.ownerSub.isSome, h.process.isNone⟩

/-- The login that was cut short leaves all that the next one needs. -/
theorem interrupted_found : (regularRun interrupted).map
    (fun h => h.store.journal.map (found h (request "client_dddddddd"))) =
      some (some ⟨.parkedOldClient, "v", "s", true, true, true, true⟩) := by
  decide +kernel

theorem rootClientId_store : rootClientId store.files = some "client_aaaaaaaa" := by decide +kernel

/-- The clients that are held, and those that occur, are the two. -/
theorem held_or_occurs {id : String} (h : ClientHeld id store.files ∨ ClientOccurs id store.files) :
    id = "client_aaaaaaaa" ∨ id = "client_bbbbbbbb" := by
  have hparked : ∀ item, (store.files (.parked id item)).isSome = true → id = "client_bbbbbbbb" := by
    intro item hitem
    by_contra hne
    simp [store, files, hne] at hitem
  rcases h with (hroot | hyaml) | (hroot | ⟨item, hitem⟩)
  · exact .inl (Option.some.inj (hroot.symm.trans rootClientId_store))
  · exact .inr (hparked .clientYaml hyaml)
  · exact .inl (Option.some.inj (hroot.symm.trans rootClientId_store))
  · exact .inr (hparked item hitem)

theorem placed_store : ClientsPlaced store store.files where
  separate :=
    { active := by
        intro id hid item
        obtain rfl := Option.some.inj (hid.symm.trans rootClientId_store)
        rfl
      named := by
        intro id file hfile
        by_cases hid : id = "client_bbbbbbbb"
        · subst hid
          obtain rfl := Option.some.inj hfile
          exact ⟨rfl, by decide +kernel⟩
        · simp [store, files, hid] at hfile }
  known :=
    { defaults := by
        intro key id hkey
        simp only [store] at hkey
        split at hkey
        · obtain rfl := Option.some.inj hkey
          exact .inr rfl
        · cases hkey
      listed := by
        intro id entry hentry
        cases hentry }
  generated := by
    intro id hid
    rcases held_or_occurs (.inr hid) with rfl | rfl <;> simp [store]
  signedIn := by
    intro _ c owner _ howner
    rw [readActiveClientOwner, rootClientId_store] at howner
    cases howner
  settled _ := rfl
  pending := by
    intro journal hjournal
    cases hjournal

end ClientSwitchExample

open ClientSwitchExample

/-! ## Every run -/

/-- In every run, however often logins and switches are cut short, the files are those of a layout that the clients have come to
by the work and the logins of the run, or a pending journal leads from the files to it; and each client that was held is held
there. -/
theorem clients_survive_crashes {h h' : Computer τ} {es : List (ComputerEvent τ)} (hidle : h.process = none)
    (hstart : ClientsPlaced h.store h.store.files) (hr : Run (Guarded Regular (ofPartial (clientComputer τ d).step)) h es h')
    (hwritten : h'.process = none ∨ isTruncated h'.store = false) :
    ∃ f, ClientSteps (es.flatMap Event.begun) h.store.files f ∧ ClientsPlaced h'.store f ∧
      ∀ id, ClientHeld id h.store.files → ClientHeld id f := by
  obtain ⟨f, hsteps, hplaced⟩ := onTheWay_of_run hidle hstart hr hwritten
  exact ⟨f, hsteps, hplaced, (kept_of_steps hsteps hstart.separate).2⟩

/-- A login that is cut short between a move and its mark. -/
theorem clients_survive_crashes_interrupted : ∃ h' : Computer Nat, (outcome h').journal = some (.parkedOldClient, 7) ∧
    ∃ f, ClientSteps [.login (request "client_cccccccc")] store.files f ∧ ClientsPlaced h'.store f ∧
      ∀ id, ClientHeld id store.files → ClientHeld id f := by
  obtain ⟨h', hh', hout⟩ := Option.map_eq_some_iff.mp interrupted_ends
  have hend : h'.process = none := Option.isNone_iff_eq_none.mp (congrArg Outcome.idle hout)
  refine ⟨h', by rw [hout], ?_⟩
  exact clients_survive_crashes (h := ⟨store, none, none⟩) rfl placed_store (Run.guarded_of_foldlM hh') (.inl hend)

/-- In every run, while no switch has its moves pending, whoever is signed in is the owner that the active client is recorded for. -/
theorem signed_in_user_owns_active_client {h h' : Computer τ} {es : List (ComputerEvent τ)} (hidle : h.process = none)
    (hstart : ClientsPlaced h.store h.store.files) (hr : Run (Guarded Regular (ofPartial (clientComputer τ d).step)) h es h')
    (hwritten : h'.process = none ∨ isTruncated h'.store = false)
    (hunmoved : ∀ journal, h'.store.journal = some journal → journal.phase = .complete ∨ journal.moves = none) :
    SignedInOwner h'.store := by
  obtain ⟨f, _, hplaced⟩ := onTheWay_of_run hidle hstart hr hwritten
  exact hplaced.signedIn hunmoved

/-- The second account owns the second client once the switch is completed. -/
theorem signed_in_user_owns_active_client_resumed : ∃ h' : Computer Nat,
    (outcome h').standing.head? = some (some "client_bbbbbbbb", some 2) ∧ SignedInOwner h'.store := by
  obtain ⟨h', hh', hout⟩ := Option.map_eq_some_iff.mp resumed_ends
  have hjournal : h'.store.journal = none := Option.map_eq_none_iff.mp (congrArg Outcome.journal hout)
  have hend : h'.process = none := Option.isNone_iff_eq_none.mp (congrArg Outcome.idle hout)
  refine ⟨h', by rw [hout]; rfl, ?_⟩
  exact signed_in_user_owns_active_client (h := ⟨store, none, none⟩) rfl placed_store (Run.guarded_of_foldlM hh') (.inl hend)
    (by simp [hjournal])

/-! ## The next login -/

/-- After every run, the next login of the user that a pending switch is for goes on with its moves: unless it is cut short
itself, the client that the journal names is active, configured for the account and signed in, and neither the lock nor the
journal is left. -/
theorem interrupted_switch_is_completed {h h' : Computer τ} {es : List (ComputerEvent τ)} {journal : SwitchJournal} {r : LoginRequest}
    (hidle : h.process = none) (hstart : ClientsPlaced h.store h.store.files)
    (hr : Run (Guarded Regular (ofPartial (clientComputer τ d).step)) h es h') (hend : h'.process = none)
    (hjournal : h'.store.journal = some journal) (hphase : journal.phase ≠ .complete) (hmoves : journal.moves.getD [] ≠ [])
    (hadmits : (ClientOp.login r : ClientOp τ).admits h'.store = true) (henv : r.envClientId = none)
    (huser : journal.to.userId = r.userId) (hserver : journal.to.serverUrl = r.serverUrl) (hguard : r.guards.accountState = .ok ())
    (howner : ∀ c, h'.store.credentials = some c → c.ownerSub.isSome = true) :
    ∃ f id, ClientSteps (es.flatMap Event.begun) h.store.files f ∧
      SwitchedTo r id f (((ClientOp.login r).program d).run h'.store).2 ∧
      (∀ id', journal.to.clientId = some id' → id = id') ∧
      (h'.store.credentials.isSome = true → (((ClientOp.login r).program d).run h'.store).1 = .ok ()) := by
  obtain ⟨f, hsteps, hplaced⟩ := onTheWay_of_run hidle hstart hr (.inl hend)
  have hplaced' : ClientsPlaced { h'.store with generated := r.newClientId :: h'.store.generated } f :=
    placed_generated hplaced r.newClientId
  have hmeets :=
    meets_login_pending (d := d) (hsteps.next (.login r)) hplaced' List.mem_cons_self (fresh_of_admits hplaced henv hadmits) hjournal
      hphase hmoves huser hserver hguard howner
  obtain ⟨id, hend, hnamed, hok⟩ := hmeets.run
  exact ⟨f, id, hsteps, hend, hnamed, hok⟩

/-- The next login goes on with the switch that was cut short. -/
theorem interrupted_switch_is_completed_resumed : ∃ (h' : Computer Nat) (journal : SwitchJournal), h'.store.journal = some journal ∧
    ∃ f id, ClientSteps [.login (request "client_cccccccc")] store.files f ∧
      SwitchedTo (request "client_dddddddd") id f (((ClientOp.login (request "client_dddddddd")).program dirs).run h'.store).2 ∧
      (∀ id', journal.to.clientId = some id' → id = id') ∧
      (h'.store.credentials.isSome = true →
        (((ClientOp.login (request "client_dddddddd")).program dirs).run h'.store).1 = .ok ()) := by
  obtain ⟨h', hh', hfound⟩ := Option.map_eq_some_iff.mp interrupted_found
  obtain ⟨journal, hjournal, hfound⟩ := Option.map_eq_some_iff.mp hfound
  obtain ⟨hphase, huser, hserver, hmoved, hadmitted, howned, hidle⟩ := Found.mk.inj hfound
  refine ⟨h', journal, hjournal, ?_⟩
  refine interrupted_switch_is_completed (h := ⟨store, none, none⟩) rfl placed_store (Run.guarded_of_foldlM hh')
    (Option.isNone_iff_eq_none.mp hidle) hjournal
    (by rw [hphase]; decide) (by simpa using hmoved) hadmitted rfl huser hserver rfl fun c hc => ?_
  simpa [hc] using howned

end FirstTree

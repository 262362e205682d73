import FirstTree.Client.ClientSwitch
import FirstTree.Lib.DurablePrograms
import FirstTree.Lib.JournaledMoves

/-!
# Files on their way between clients

What a switch is for, as one step between two layouts of the files, and how the moves of a journal lead from one to the other:
each program of a login keeps the files on their way to a layout that its clients reach in such steps.
-/

namespace FirstTree

open Durable JournaledMoves ClientSwitch

variable {τ : Type}

/-! ## What a switch is for -/

/-- The files after a switch: the old client's are parked, and the new client's are active. -/
def switched (fromId : String) (toId : Option String) (f : SwitchFiles τ) : SwitchFiles τ
  | .active item =>
    match toId with
    | none => none
    | some toId => if toId = fromId then f (.active item) else f (.parked toId item)
  | .parked id item => if toId = some id then none else if id = fromId then f (.active item) else f (.parked id item)

/-- A client has its `client.yaml` on this computer. -/
def ClientHeld (id : String) (f : SwitchFiles τ) : Prop :=
  rootClientId f = some id ∨ (f (.parked id .clientYaml)).isSome = true

/-- A client id occurs on this computer. -/
def ClientOccurs (id : String) (f : SwitchFiles τ) : Prop :=
  rootClientId f = some id ∨ ∃ item, (f (.parked id item)).isSome = true

/-- What an operation does to the files of the clients, in one step: work replaces the file it names; a login configures the active
client, with its server and, where there is no client id, its new one, or switches it for another that is held or for a new one. -/
inductive ClientStep : ClientOp τ → SwitchFiles τ → SwitchFiles τ → Prop where
  | work (f : SwitchFiles τ) (item : SwitchItem) (file : Option (SwitchFile τ)) (hitem : item ≠ .clientYaml) :
      ClientStep (.work item file) f (Function.update f (.active item) file)
  | configure (r : LoginRequest) (f : SwitchFiles τ) (yaml : ClientYaml τ)
      (hrest : yaml.rest = (yamlOf (f (.active .clientYaml))).rest) (hserver : yaml.serverUrl = some r.serverUrl)
      (hkept : ∀ id, (yamlOf (f (.active .clientYaml))).clientId = some id → yaml.clientId = some id)
      (hnew : ∀ id, yaml.clientId = some id →
        (yamlOf (f (.active .clientYaml))).clientId = some id ∨ id = r.newClientId ∧ ¬ ClientOccurs id f) :
      ClientStep (.login r) f (Function.update f (.active .clientYaml) (some (.clientYaml yaml)))
  | switch (r : LoginRequest) (f : SwitchFiles τ) (fromId : String) (toId : Option String) (hfrom : rootClientId f = some fromId)
      (hto : ∀ id, toId = some id → ClientHeld id f) : ClientStep (.login r) f (switched fromId toId f)

/-- The files that the clients of a computer may have come to by some operations, each of which has done any number of its steps. -/
inductive ClientSteps : List (ClientOp τ) → SwitchFiles τ → SwitchFiles τ → Prop where
  | start (f : SwitchFiles τ) : ClientSteps [] f f
  | next {ops : List (ClientOp τ)} {f g : SwitchFiles τ} (op : ClientOp τ) (h : ClientSteps ops f g) : ClientSteps (ops ++ [op]) f g
  | step {ops : List (ClientOp τ)} {op : ClientOp τ} {f g g' : SwitchFiles τ} (h : ClientSteps (ops ++ [op]) f g)
      (hstep : ClientStep op g g') : ClientSteps (ops ++ [op]) f g'

/-- The files of a client that is configured. -/
abbrev configuredWith (yaml : ClientYaml τ) (f : SwitchFiles τ) : SwitchFiles τ :=
  Function.update f (.active .clientYaml) (some (.clientYaml yaml))

/-- The files once a client is configured for its account. -/
def configured (r : LoginRequest) (id : String) (f : SwitchFiles τ) : SwitchFiles τ :=
  configuredWith { yamlOf (f (.active .clientYaml)) with serverUrl := some r.serverUrl, clientId := some id } f

/-- The active client has nothing parked, and what is parked is named after its client. -/
structure Separate (f : SwitchFiles τ) : Prop where
  active : ∀ id, rootClientId f = some id → ∀ item, f (.parked id item) = none
  named : ∀ id file, f (.parked id .clientYaml) = some file → (yamlOf (some file)).clientId = some id ∧ isClientId id = true

/-- The moves that a journal still has to make. -/
def pendingMoves (moves : List SwitchJournalMove) : List (Move SwitchPath) :=
  (moves.filter fun entry => decide (entry.state = .pending)).map fun entry => ⟨entry.source, entry.target, entry.required⟩

/-- The moves of a journal park first and restore then. -/
def Grouped (moves : List SwitchJournalMove) : Prop :=
  ∃ parks restores, moves.map (·.group) = List.replicate parks .park ++ List.replicate restores .restore

namespace ClientSwitchAux

variable {f : SwitchFiles τ} {fromId id : String} {toId : Option String}

/-! ## Layouts -/

/-- A client that is held occurs. -/
theorem ClientHeld.occurs (h : ClientHeld id f) : ClientOccurs id f := h.imp_right fun h => ⟨.clientYaml, h⟩

/-- The client id of a root whose `client.yaml` is written. -/
theorem rootClientId_configure (f : SwitchFiles τ) (yaml : ClientYaml τ) :
    rootClientId (Function.update f (.active .clientYaml) (some (.clientYaml yaml))) = yaml.clientId.filter isClientId := by
  simp [rootClientId, yamlOf]

/-- Work on another file leaves the client id of the root. -/
theorem rootClientId_work {item : SwitchItem} (hitem : item ≠ .clientYaml) (f : SwitchFiles τ) (file : Option (SwitchFile τ)) :
    rootClientId (Function.update f (.active item) file) = rootClientId f := by
  rw [rootClientId, rootClientId, Function.update_of_ne]
  simpa using hitem.symm

/-- What a `client.yaml` names is the client id of the root, when it is one. -/
theorem rootClientId_eq (h : rootClientId f = some id) :
    (yamlOf (f (.active .clientYaml))).clientId = some id ∧ isClientId id = true := by
  obtain ⟨hyaml, hid⟩ := Option.filter_eq_some_iff.mp h
  exact ⟨hyaml, hid⟩

/-- The client id of a root after a switch to a client that is held. -/
theorem rootClientId_switched (hsep : Separate f) (hfrom : rootClientId f = some fromId) (hto : ClientHeld id f) :
    rootClientId (switched fromId (some id) f) = some id := by
  by_cases hsame : id = fromId
  · subst hsame
    simpa [rootClientId, switched] using hfrom
  · rcases hto with hroot | hparked
    · exact absurd (Option.some.inj (hroot.symm.trans hfrom)) hsame
    · obtain ⟨file, hfile⟩ := Option.isSome_iff_exists.mp hparked
      obtain ⟨hname, hid⟩ := hsep.named id file hfile
      simp [rootClientId, switched, hsame, hfile, hname, hid]

/-- The client that is switched from is parked, unless it is the one that is switched to. -/
theorem switched_parked_from (hne : toId ≠ some fromId) (item : SwitchItem) :
    switched fromId toId f (.parked fromId item) = f (.active item) := by
  simp [switched, hne]

/-- The client that is switched to has nothing parked. -/
theorem switched_parked_to (item : SwitchItem) : switched fromId (some id) f (.parked id item) = none := by
  simp [switched]

/-- The other clients stay parked. -/
theorem switched_parked_other (hfrom : id ≠ fromId) (hto : toId ≠ some id) (item : SwitchItem) :
    switched fromId toId f (.parked id item) = f (.parked id item) := by
  simp [switched, hfrom, hto]

/-- A root without a `client.yaml` has no client id. -/
theorem rootClientId_new : rootClientId (switched fromId none f) = none := rfl

/-- The file of an active client is there. -/
theorem isSome_of_rootClientId (h : rootClientId f = some id) : (f (.active .clientYaml)).isSome = true := by
  obtain ⟨hyaml, _⟩ := rootClientId_eq h
  cases hfile : f (.active .clientYaml) with
  | none => simp [hfile, yamlOf] at hyaml
  | some file => rfl

/-- A switch keeps the clients apart. -/
theorem separate_switched (hsep : Separate f) (hfrom : rootClientId f = some fromId) (hto : ∀ id, toId = some id → ClientHeld id f) :
    Separate (switched fromId toId f) where
  active id hid item := by
    cases toId with
    | none =>
      rw [rootClientId_new] at hid
      cases hid
    | some target =>
      rw [rootClientId_switched hsep hfrom (hto target rfl)] at hid
      obtain rfl := Option.some.inj hid
      exact switched_parked_to item
  named id file hfile := by
    by_cases hto' : toId = some id
    · subst hto'
      rw [switched_parked_to] at hfile
      cases hfile
    · by_cases hid : id = fromId
      · subst hid
        rw [switched_parked_from hto'] at hfile
        rw [← hfile]
        exact rootClientId_eq hfrom
      · rw [switched_parked_other hid hto'] at hfile
        exact hsep.named id file hfile

/-- A switch keeps the clients that are held. -/
theorem held_switched (hsep : Separate f) (hfrom : rootClientId f = some fromId) (hto : ∀ id, toId = some id → ClientHeld id f)
    (h : ClientHeld id f) : ClientHeld id (switched fromId toId f) := by
  by_cases hto' : toId = some id
  · subst hto'
    exact .inl (rootClientId_switched hsep hfrom h)
  · right
    by_cases hid : id = fromId
    · subst hid
      rw [switched_parked_from hto']
      exact isSome_of_rootClientId hfrom
    · rw [switched_parked_other hid hto']
      rcases h with hroot | hparked
      · exact absurd (Option.some.inj (hroot.symm.trans hfrom)) hid
      · exact hparked

/-- A switch brings no client id that was not there. -/
theorem occurs_of_switched (hsep : Separate f) (hfrom : rootClientId f = some fromId) (hto : ∀ id, toId = some id → ClientHeld id f)
    (h : ClientOccurs id (switched fromId toId f)) : ClientOccurs id f := by
  rcases h with hroot | ⟨item, hitem⟩
  · cases toId with
    | none =>
      rw [rootClientId_new] at hroot
      cases hroot
    | some target =>
      rw [rootClientId_switched hsep hfrom (hto target rfl)] at hroot
      obtain rfl := Option.some.inj hroot
      exact ClientHeld.occurs (hto target rfl)
  · by_cases hto' : toId = some id
    · subst hto'
      rw [switched_parked_to] at hitem
      cases hitem
    · by_cases hid : id = fromId
      · exact .inl (hid ▸ hfrom)
      · rw [switched_parked_other hid hto'] at hitem
        exact .inr ⟨item, hitem⟩

/-- The `client.yaml` after a switch names a client id, where it names any. -/
theorem valid_switched (hsep : Separate f) (hfrom : rootClientId f = some fromId) (hto : ∀ id, toId = some id → ClientHeld id f) :
    (yamlOf (switched fromId toId f (.active .clientYaml))).clientId.all isClientId = true := by
  cases toId with
  | none => rfl
  | some target =>
    obtain ⟨hname, hid⟩ := rootClientId_eq (rootClientId_switched hsep hfrom (hto target rfl))
    rw [hname]
    exact hid

/-- Work of the active client keeps the clients apart. -/
theorem separate_work (hsep : Separate f) {item : SwitchItem} (hitem : item ≠ .clientYaml) (file : Option (SwitchFile τ)) :
    Separate (Function.update f (.active item) file) where
  active id hid item' := by
    rw [rootClientId_work hitem] at hid
    rw [Function.update_of_ne (by simp)]
    exact hsep.active id hid item'
  named id file' hfile := by
    rw [Function.update_of_ne (by simp)] at hfile
    exact hsep.named id file' hfile

/-- Work of the active client changes neither which clients are held nor which ids occur. -/
theorem held_work {item : SwitchItem} (hitem : item ≠ .clientYaml) (file : Option (SwitchFile τ)) :
    ClientHeld id (Function.update f (.active item) file) ↔ ClientHeld id f := by
  rw [ClientHeld, ClientHeld, rootClientId_work hitem, Function.update_of_ne (by simp)]

theorem occurs_work {item : SwitchItem} (hitem : item ≠ .clientYaml) (file : Option (SwitchFile τ)) :
    ClientOccurs id (Function.update f (.active item) file) ↔ ClientOccurs id f := by
  have hparked : ∀ item', Function.update f (.active item) file (.parked id item') = f (.parked id item') := fun item' =>
    Function.update_of_ne (by simp) _ _
  simp only [ClientOccurs, rootClientId_work hitem, hparked]

section Configure

variable {yaml : ClientYaml τ}

/-- A configuration keeps the clients apart. -/
theorem separate_configure (hsep : Separate f)
    (hnew : ∀ id, yaml.clientId = some id → (yamlOf (f (.active .clientYaml))).clientId = some id ∨ ¬ ClientOccurs id f) :
    Separate (Function.update f (.active .clientYaml) (some (.clientYaml yaml))) where
  active id hid item := by
    rw [rootClientId_configure] at hid
    obtain ⟨hyaml, hvalid⟩ := Option.filter_eq_some_iff.mp hid
    rw [Function.update_of_ne (by simp)]
    rcases hnew id hyaml with hsame | hfresh
    · exact hsep.active id (Option.filter_eq_some_iff.mpr ⟨hsame, hvalid⟩) item
    · by_contra hparked
      exact hfresh (.inr ⟨item, Option.isSome_iff_ne_none.mpr hparked⟩)
  named id file hfile := by
    rw [Function.update_of_ne (by simp)] at hfile
    exact hsep.named id file hfile

/-- A configuration keeps the clients that are held. -/
theorem held_configure (hkept : ∀ id, (yamlOf (f (.active .clientYaml))).clientId = some id → yaml.clientId = some id)
    (h : ClientHeld id f) : ClientHeld id (Function.update f (.active .clientYaml) (some (.clientYaml yaml))) := by
  rcases h with hroot | hparked
  · obtain ⟨hyaml, hvalid⟩ := rootClientId_eq hroot
    left
    rw [rootClientId_configure]
    exact Option.filter_eq_some_iff.mpr ⟨hkept id hyaml, hvalid⟩
  · right
    rwa [Function.update_of_ne (by simp)]

/-- A configuration brings no client id but that of the `client.yaml`. -/
theorem occurs_of_configure (h : ClientOccurs id (Function.update f (.active .clientYaml) (some (.clientYaml yaml)))) :
    yaml.clientId = some id ∧ isClientId id = true ∨ ClientOccurs id f := by
  rcases h with hroot | ⟨item, hitem⟩
  · rw [rootClientId_configure] at hroot
    exact .inl (Option.filter_eq_some_iff.mp hroot)
  · rw [Function.update_of_ne (by simp)] at hitem
    exact .inr (.inr ⟨item, hitem⟩)

end Configure

/-! ## Steps of the clients -/

/-- A step of the clients keeps them apart. -/
theorem separate_step {op : ClientOp τ} {g : SwitchFiles τ} (hstep : ClientStep op f g) (hsep : Separate f) : Separate g := by
  cases hstep with
  | work _ item file hitem => exact separate_work hsep hitem file
  | configure r _ yaml hrest hserver hkept hnew => exact separate_configure hsep fun id hid => (hnew id hid).imp_right And.right
  | switch r _ fromId toId hfrom hto => exact separate_switched hsep hfrom hto

/-- A step of the clients keeps those that are held. -/
theorem held_step {op : ClientOp τ} {g : SwitchFiles τ} (hstep : ClientStep op f g) (hsep : Separate f) (h : ClientHeld id f) :
    ClientHeld id g := by
  cases hstep with
  | work _ item file hitem => exact (held_work hitem file).mpr h
  | configure r _ yaml hrest hserver hkept hnew => exact held_configure hkept h
  | switch r _ fromId toId hfrom hto => exact held_switched hsep hfrom hto h

/-- The clients of a computer stay apart, and each that is held stays. -/
theorem kept_of_steps {ops : List (ClientOp τ)} {g : SwitchFiles τ} (hsteps : ClientSteps ops f g) (hsep : Separate f) :
    Separate g ∧ ∀ id, ClientHeld id f → ClientHeld id g := by
  induction hsteps with
  | start => exact ⟨hsep, fun _ h => h⟩
  | next op _ ih => exact ih hsep
  | step _ hstep ih =>
    obtain ⟨hsep, hheld⟩ := ih hsep
    exact ⟨separate_step hstep hsep, fun id h => held_step hstep hsep (hheld id h)⟩

/-! ## The moves of a switch -/

/-- The paths of the parked items of a client. -/
theorem sideBySide_park (id : String) : SideBySide SwitchPath.active (SwitchPath.parked id) :=
  ⟨fun _ _ h => by simpa using h, fun _ _ h => by simpa using h, fun _ _ => by simp⟩

theorem sideBySide_restore (id : String) : SideBySide (SwitchPath.parked id) SwitchPath.active :=
  ⟨fun _ _ h => by simpa using h, fun _ _ h => by simpa using h, fun _ _ => by simp⟩

/-- Every item is moved, once. -/
theorem mem_switchItems (item : SwitchItem) : item ∈ switchItems := by
  cases item <;> decide

theorem nodup_switchItems : switchItems.Nodup := by decide

/-- The moves that a new journal has to make. -/
theorem pendingMoves_build (fromId : String) (toId : Option String) :
    pendingMoves (buildSwitchMoves fromId toId) =
      moves SwitchPath.active (SwitchPath.parked fromId) (fun item => decide (item = .clientYaml)) switchItems ++
        toId.elim [] fun id =>
          moves (SwitchPath.parked id) SwitchPath.active (fun item => decide (item = .clientYaml)) switchItems := by
  cases toId <;> rfl

/-- The moves of a new journal park first. -/
theorem grouped_build (fromId : String) (toId : Option String) : Grouped (buildSwitchMoves fromId toId) := by
  cases toId with
  | none => exact ⟨7, 1, rfl⟩
  | some id => exact ⟨7, 7, rfl⟩

/-- The files once the old client is parked. -/
def parkedFiles (fromId : String) (f : SwitchFiles τ) : SwitchFiles τ :=
  applyAll (moves SwitchPath.active (SwitchPath.parked fromId) (fun item => decide (item = .clientYaml)) switchItems) f

theorem parkedFiles_active (hfree : ∀ item, f (.parked fromId item) = none) (item : SwitchItem) :
    parkedFiles fromId f (.active item) = none :=
  (applyAll_moves (sideBySide_park fromId) nodup_switchItems (fun i _ => hfree i) (mem_switchItems item)).1

theorem parkedFiles_from (hfree : ∀ item, f (.parked fromId item) = none) (item : SwitchItem) :
    parkedFiles fromId f (.parked fromId item) = f (.active item) :=
  (applyAll_moves (sideBySide_park fromId) nodup_switchItems (fun i _ => hfree i) (mem_switchItems item)).2

theorem parkedFiles_other (hid : id ≠ fromId) (item : SwitchItem) : parkedFiles fromId f (.parked id item) = f (.parked id item) :=
  applyAll_other (by simp) (by simp [hid])

/-- The files once the parked files of a client are active. -/
def restoredFiles (id : String) (f : SwitchFiles τ) : SwitchFiles τ :=
  applyAll (moves (SwitchPath.parked id) SwitchPath.active (fun item => decide (item = .clientYaml)) switchItems) f

theorem restoredFiles_active (hvacant : ∀ item, f (.active item) = none) (item : SwitchItem) :
    restoredFiles id f (.active item) = f (.parked id item) :=
  (applyAll_moves (sideBySide_restore id) nodup_switchItems (fun i _ => hvacant i) (mem_switchItems item)).2

theorem restoredFiles_self (hvacant : ∀ item, f (.active item) = none) (item : SwitchItem) :
    restoredFiles id f (.parked id item) = none :=
  (applyAll_moves (sideBySide_restore id) nodup_switchItems (fun i _ => hvacant i) (mem_switchItems item)).1

theorem restoredFiles_other {id' : String} (hid : id' ≠ id) (item : SwitchItem) :
    restoredFiles id f (.parked id' item) = f (.parked id' item) :=
  applyAll_other (by simp [hid]) (by simp)

/-- Parking leads to the files of a switch to a new client. -/
theorem parkedFiles_eq (hsep : Separate f) (hfrom : rootClientId f = some fromId) :
    parkedFiles fromId f = switched fromId none f := by
  have hfree := hsep.active fromId hfrom
  funext path
  cases path with
  | active item => exact parkedFiles_active hfree item
  | parked id item =>
    by_cases hid : id = fromId
    · subst hid
      rw [switched_parked_from (by simp), parkedFiles_from hfree]
    · rw [switched_parked_other hid (by simp), parkedFiles_other hid]

/-- Parking and restoring lead to the files of a switch. -/
theorem restoredFiles_eq (hsep : Separate f) (hfrom : rootClientId f = some fromId) :
    restoredFiles id (parkedFiles fromId f) = switched fromId (some id) f := by
  have hfree := hsep.active fromId hfrom
  have hvacant := parkedFiles_active (f := f) hfree
  funext path
  cases path with
  | active item =>
    rw [restoredFiles_active hvacant]
    by_cases hid : id = fromId
    · subst hid
      rw [parkedFiles_from hfree]
      simp [switched]
    · rw [parkedFiles_other hid]
      simp [switched, hid]
  | parked id' item =>
    by_cases hid' : id' = id
    · subst hid'
      rw [switched_parked_to, restoredFiles_self hvacant]
    · have hne : some id ≠ some id' := by simpa using Ne.symm hid'
      rw [restoredFiles_other hid']
      by_cases hid : id' = fromId
      · subst hid
        rw [switched_parked_from hne, parkedFiles_from hfree]
      · rw [switched_parked_other hid hne, parkedFiles_other hid]

/-- Nothing is in the way of the moves of a switch. -/
theorem clear_build (hsep : Separate f) (hfrom : rootClientId f = some fromId) (hto : ∀ id, toId = some id → ClientHeld id f) :
    Clear (pendingMoves (buildSwitchMoves fromId toId)) f := by
  have hfree := hsep.active fromId hfrom
  rw [pendingMoves_build]
  have hpark :
      Clear (moves SwitchPath.active (SwitchPath.parked fromId) (fun item => decide (item = .clientYaml)) switchItems) f := by
    refine clear_moves (sideBySide_park fromId) nodup_switchItems (fun item _ => hfree item) fun item _ hrequired => ?_
    obtain rfl := of_decide_eq_true hrequired
    exact isSome_of_rootClientId hfrom
  cases toId with
  | none => exact clear_append hpark trivial
  | some id =>
    refine clear_append hpark (clear_moves (sideBySide_restore id) nodup_switchItems (fun item _ => parkedFiles_active hfree item) ?_)
    intro item _ hrequired
    obtain rfl := of_decide_eq_true hrequired
    show (parkedFiles fromId f (.parked id .clientYaml)).isSome = true
    by_cases hid : id = fromId
    · subst hid
      rw [parkedFiles_from hfree]
      exact isSome_of_rootClientId hfrom
    · rw [parkedFiles_other hid]
      rcases hto id rfl with hroot | hparked
      · exact absurd (Option.some.inj (hroot.symm.trans hfrom)) hid
      · exact hparked

/-- The moves of a switch lead where it leads. -/
theorem applyAll_build (hsep : Separate f) (hfrom : rootClientId f = some fromId) :
    applyAll (pendingMoves (buildSwitchMoves fromId toId)) f = switched fromId toId f := by
  rw [pendingMoves_build, applyAll_append, ← parkedFiles]
  cases toId with
  | none =>
    rw [Option.elim_none, applyAll, List.foldl_nil]
    exact parkedFiles_eq hsep hfrom
  | some id =>
    rw [Option.elim_some, ← restoredFiles]
    exact restoredFiles_eq hsep hfrom

end ClientSwitchAux

end FirstTree

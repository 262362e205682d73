import FirstTree.Lib.Runs

/-!
# Programs over a durable store

A program over a durable store reads it and replaces it, one atomic step after another, and ends with a result or an error. The
process that runs it may crash between two steps: the program is then gone and the store is as the last step left it.

A host has one store and at most one process. It begins operations, and after a crash it runs a recovery program, whose process may
crash as well. When every store a crash may leave is one the recovery program brings to a settled end, whatever crashes come in
between, every store that a run of the host leaves behind is settled by the next recovery that is not cut short. An invariant may
speak of the operations that have begun: what every program keeps, once its own operation is counted, every run keeps.
-/

namespace Durable

open Runs

universe u

variable {σ ε : Type*} {α β : Type u}

/-- A program: it has ended, or it reads the store and goes on, or it replaces the store in one atomic step and goes on. -/
inductive Program (σ ε α : Type*) where
  | done (result : Except ε α)
  | reads (next : σ → Program σ ε α)
  | writes (act : σ → σ) (next : Program σ ε α)

namespace Program

/-- What follows a program, by its result or its error. -/
def andThen (f : Except ε α → Program σ ε β) : Program σ ε α → Program σ ε β
  | .done result => f result
  | .reads next => .reads fun s => (next s).andThen f
  | .writes act next => .writes act (next.andThen f)

/-- What follows the result of a program; an error ends the whole. -/
def onOk (f : α → Program σ ε β) : Except ε α → Program σ ε β
  | .ok a => f a
  | .error e => .done (.error e)

/-- What follows the error of a program; a result ends the whole. -/
def onError (handler : ε → Program σ ε α) : Except ε α → Program σ ε α
  | .ok a => .done (.ok a)
  | .error e => handler e

instance : Monad (Program σ ε) where
  pure a := .done (.ok a)
  bind p f := p.andThen (onOk f)

instance : MonadExceptOf ε (Program σ ε) where
  throw e := .done (.error e)
  tryCatch p handler := p.andThen (onError handler)

/-- A program that reads the store. -/
def read (f : σ → α) : Program σ ε α :=
  .reads fun s => .done (.ok (f s))

/-- A program that replaces the store in one step. -/
def write (act : σ → σ) : Program σ ε Unit :=
  .writes act (.done (.ok ()))

/-- A check that touches nothing. -/
def check (result : Except ε α) : Program σ ε α := .done result

/-- The program from a store to its end. -/
def run : Program σ ε α → σ → Except ε α × σ
  | .done result, s => (result, s)
  | .reads next, s => (next s).run s
  | .writes act next, s => next.run (act s)

/-- The next atomic step and what is left of the program; none when it ends without another step. -/
def step : Program σ ε α → σ → Option (σ × Program σ ε α)
  | .done _, _ => none
  | .reads next, s => (next s).step s
  | .writes act next, s => some (act s, next)

/-! ## Specifications -/

/-- From a store, every step of the program leaves a store that meets the crash condition, and its end meets the postcondition. -/
def Meets (crash : σ → Prop) (post : Except ε α → σ → Prop) : Program σ ε α → σ → Prop
  | .done result, s => post result s
  | .reads next, s => Meets crash post (next s) s
  | .writes act next, s => crash (act s) ∧ Meets crash post next (act s)

variable {crash crash' : σ → Prop} {post post' : Except ε α → σ → Prop} {s : σ}

/-- What follows a program is met from its ends. -/
theorem meets_andThen {f : Except ε α → Program σ ε β} {post : Except ε β → σ → Prop} {p : Program σ ε α} :
    (p.andThen f).Meets crash post s ↔ p.Meets crash (fun r t => (f r).Meets crash post t) s := by
  induction p generalizing s with
  | done result => exact Iff.rfl
  | reads next ih => exact ih s
  | writes act next ih => exact and_congr_right fun _ => ih

@[simp] theorem meets_pure {a : α} : (pure a : Program σ ε α).Meets crash post s ↔ post (.ok a) s := Iff.rfl

@[simp] theorem meets_throw {e : ε} : (throw e : Program σ ε α).Meets crash post s ↔ post (.error e) s := Iff.rfl

@[simp] theorem meets_check {r : Except ε α} : (check r : Program σ ε α).Meets crash post s ↔ post r s := Iff.rfl

@[simp] theorem meets_read {f : σ → α} : (read f : Program σ ε α).Meets crash post s ↔ post (.ok (f s)) s := Iff.rfl

@[simp] theorem meets_write {act : σ → σ} {post : Except ε Unit → σ → Prop} :
    (write act : Program σ ε Unit).Meets crash post s ↔ crash (act s) ∧ post (.ok ()) (act s) := Iff.rfl

@[simp] theorem meets_bind {p : Program σ ε α} {f : α → Program σ ε β} {post : Except ε β → σ → Prop} :
    (p >>= f).Meets crash post s ↔ p.Meets crash (fun r t => (onOk f r).Meets crash post t) s := meets_andThen

@[simp] theorem meets_tryCatch {p : Program σ ε α} {handler : ε → Program σ ε α} :
    (tryCatch p handler : Program σ ε α).Meets crash post s ↔
      p.Meets crash (fun r t => (onError handler r).Meets crash post t) s := meets_andThen

@[simp] theorem meets_onOk_ok {a : α} {f : α → Program σ ε β} {post : Except ε β → σ → Prop} :
    (onOk f (.ok a)).Meets crash post s ↔ (f a).Meets crash post s := Iff.rfl

@[simp] theorem meets_onOk_error {e : ε} {f : α → Program σ ε β} {post : Except ε β → σ → Prop} :
    (onOk f (.error e)).Meets crash post s ↔ post (.error e) s := Iff.rfl

@[simp] theorem meets_onError_ok {a : α} {handler : ε → Program σ ε α} :
    (onError handler (.ok a)).Meets crash post s ↔ post (.ok a) s := Iff.rfl

@[simp] theorem meets_onError_error {e : ε} {handler : ε → Program σ ε α} :
    (onError handler (.error e)).Meets crash post s ↔ (handler e).Meets crash post s := Iff.rfl

/-- A program goes on from what it reads. -/
theorem meets_read_bind {f : σ → α} {next : α → Program σ ε β} {post : Except ε β → σ → Prop} :
    (read f >>= next).Meets crash post s ↔ (next (f s)).Meets crash post s := Iff.rfl

/-- A program goes on from what it writes. -/
theorem meets_write_bind {act : σ → σ} {γ : Type} {next : Unit → Program σ ε γ} {post : Except ε γ → σ → Prop} :
    (write act >>= next).Meets crash post s ↔ crash (act s) ∧ (next ()).Meets crash post (act s) := Iff.rfl

/-- A program goes on from a check that succeeds, and ends with one that fails. -/
theorem meets_check_bind {r : Except ε α} {f : α → Program σ ε β} {post : Except ε β → σ → Prop}
    (herror : ∀ e, r = .error e → post (.error e) s) (hok : ∀ a, r = .ok a → (f a).Meets crash post s) :
    (check r >>= f).Meets crash post s := by
  cases r with
  | error e => exact herror e rfl
  | ok a => exact hok a rfl

/-- Weaker conditions are met as well. -/
theorem Meets.mono {p : Program σ ε α} (h : p.Meets crash post s) (hcrash : ∀ t, crash t → crash' t)
    (hpost : ∀ r t, post r t → post' r t) : p.Meets crash' post' s := by
  induction p generalizing s with
  | done result => exact hpost result s h
  | reads next ih => exact ih s h
  | writes act next ih => exact ⟨hcrash _ h.1, ih h.2⟩

/-- The end of a program meets its postcondition. -/
theorem Meets.run {p : Program σ ε α} (h : p.Meets crash post s) : post (p.run s).1 (p.run s).2 := by
  induction p generalizing s with
  | done result => exact h
  | reads next ih => exact ih s h
  | writes act next ih => exact ih h.2

/-- A step leaves a store that meets the crash condition, and a program that meets the same specification. -/
theorem Meets.step {p q : Program σ ε α} {t : σ} (h : p.Meets crash post s) (hstep : p.step s = some (t, q)) :
    crash t ∧ q.Meets crash post t := by
  induction p generalizing s with
  | done result => exact absurd hstep (by simp [Program.step])
  | reads next ih => exact ih s h hstep
  | writes act next ih =>
    obtain ⟨rfl, rfl⟩ : act s = t ∧ next = q := by simpa [Program.step] using hstep
    exact h

/-- A program without another step ends in the store it is in. -/
theorem Meets.finished {p : Program σ ε α} (h : p.Meets crash post s) (hstep : p.step s = none) : ∃ r, post r s := by
  induction p generalizing s with
  | done result => exact ⟨result, h⟩
  | reads next ih => exact ih s h hstep
  | writes act next ih => exact absurd hstep (by simp [Program.step])

end Program

/-! ## Hosts -/

section Hosts

variable {ω : Type*}

/-- What a host runs: the program of an operation, where it may begin, and the recovery program. -/
structure Service (ω σ ε : Type*) where
  admits : ω → σ → Bool
  program : ω → Program σ ε Unit
  recovery : Program σ ε Unit

/-- A host: its store, the operation last begun with the store it began in, and what its process has left to do. -/
structure Host (ω σ ε : Type*) where
  store : σ
  begun : Option (ω × σ)
  process : Option (Program σ ε Unit)

/-- What may happen at a host. -/
inductive Event (ω : Type*) where
  | begin (op : ω)
  | recover
  | step
  | crash

/-- One event at a host. An operation begins with its first step, in a store that admits it. -/
def Service.step (V : Service ω σ ε) (h : Host ω σ ε) : Event ω → Option (Host ω σ ε)
  | .begin op =>
    if h.process.isNone && V.admits op h.store then
      match (V.program op).step h.store with
      | some (s, rest) => some { store := s, begun := some (op, h.store), process := some rest }
      | none => some { store := h.store, begun := some (op, h.store), process := none }
    else none
  | .recover => if h.process.isNone then some { h with process := some V.recovery } else none
  | .step =>
    match h.process with
    | some p =>
      match p.step h.store with
      | some (s, rest) => some { h with store := s, process := some rest }
      | none => some { h with process := none }
    | none => none
  | .crash => if h.process.isSome then some { h with process := none } else none

/-- The crashes of a run spare the stores that meet a condition. -/
def SparedBy (bad : σ → Prop) (h : Host ω σ ε) : Event ω → Prop
  | .crash => ¬ bad h.store
  | _ => True

/-- What an operation may leave at a crash, and what it is settled as. Recovery takes every store of the first kind to one of the
second kind, and whatever store its own steps leave is of the first kind, unless it is one of the bad ones. -/
structure Recovers (V : Service ω σ ε) (crashed settled : ω → σ → σ → Prop) (bad : σ → Prop) : Prop where
  operation : ∀ op s₀, V.admits op s₀ = true →
    (V.program op).Meets (fun s => crashed op s₀ s ∨ bad s) (fun _ s => settled op s₀ s) s₀
  recovery : ∀ op s₀ s, crashed op s₀ s →
    V.recovery.Meets (fun t => crashed op s₀ t ∨ bad t) (fun r t => r = .ok () ∧ settled op s₀ t) s
  settled : ∀ op s₀ s, settled op s₀ s → crashed op s₀ s

variable {V : Service ω σ ε} {crashed settled : ω → σ → σ → Prop} {bad : σ → Prop}

/-- What holds of a host: without a process its store is one that recovery settles; with one, the rest of the program keeps to
that. -/
structure Sound (crashed : ω → σ → σ → Prop) (bad : σ → Prop) (h : Host ω σ ε) : Prop where
  idle : ∀ op s₀, h.begun = some (op, s₀) → h.process = none → crashed op s₀ h.store
  busy : ∀ op s₀ p, h.begun = some (op, s₀) → h.process = some p →
    (crashed op s₀ h.store ∨ bad h.store) ∧
      p.Meets (fun t => crashed op s₀ t ∨ bad t) (fun _ t => crashed op s₀ t) h.store

/-- Every event at a host whose crashes spare the bad stores keeps it sound. -/
theorem sound_step (hV : Recovers V crashed settled bad) :
    Preserves (Guarded (SparedBy bad) (ofPartial V.step)) (Sound crashed bad) := by
  rintro h a h' hs ⟨hguard, hstep⟩
  cases a with
  | «begin» op =>
    simp only [ofPartial, Service.step] at hstep
    split at hstep
    · rename_i hcond
      simp only [Bool.and_eq_true] at hcond
      have hmeets := (hV.operation op h.store hcond.2).mono (fun _ ht => ht) fun _ t ht => hV.settled op h.store t ht
      split at hstep
      · rename_i s rest hnext
        obtain rfl := Option.some.inj hstep
        obtain ⟨hcrash, hrest⟩ := hmeets.step hnext
        refine ⟨fun _ _ _ hnone => absurd hnone (by simp), fun op' s₀ p hbegun hproc => ?_⟩
        obtain ⟨rfl, rfl⟩ : op = op' ∧ h.store = s₀ := by simpa using hbegun
        obtain rfl : rest = p := by simpa using hproc
        exact ⟨hcrash, hrest⟩
      · rename_i hnext
        obtain rfl := Option.some.inj hstep
        refine ⟨fun op' s₀ hbegun _ => ?_, fun _ _ _ _ hsome => absurd hsome (by simp)⟩
        obtain ⟨rfl, rfl⟩ : op = op' ∧ h.store = s₀ := by simpa using hbegun
        obtain ⟨_, hend⟩ := hmeets.finished hnext
        exact hend
    · exact absurd hstep (by simp)
  | recover =>
    simp only [ofPartial, Service.step] at hstep
    split at hstep
    · rename_i hnone
      obtain rfl := Option.some.inj hstep
      refine ⟨fun _ _ _ h' => absurd h' (by simp), fun op s₀ p hbegun hproc => ?_⟩
      obtain rfl : V.recovery = p := by simpa using hproc
      have hcrashed := hs.idle op s₀ hbegun (by simpa using hnone)
      exact ⟨.inl hcrashed, (hV.recovery op s₀ h.store hcrashed).mono (fun _ ht => ht)
        fun _ t ht => hV.settled op s₀ t ht.2⟩
    · exact absurd hstep (by simp)
  | step =>
    simp only [ofPartial, Service.step] at hstep
    split at hstep
    · rename_i p hp
      split at hstep
      · rename_i s rest hnext
        obtain rfl := Option.some.inj hstep
        refine ⟨fun _ _ _ h' => absurd h' (by simp), fun op s₀ q hbegun hproc => ?_⟩
        obtain rfl : rest = q := by simpa using hproc
        exact (hs.busy op s₀ p hbegun hp).2.step hnext
      · rename_i hnext
        obtain rfl := Option.some.inj hstep
        refine ⟨fun op s₀ hbegun _ => ?_, fun _ _ _ _ h' => absurd h' (by simp)⟩
        obtain ⟨_, hend⟩ := (hs.busy op s₀ p hbegun hp).2.finished hnext
        exact hend
    · exact absurd hstep (by simp)
  | crash =>
    simp only [ofPartial, Service.step] at hstep
    split at hstep
    · rename_i hsome
      obtain ⟨p, hp⟩ := Option.isSome_iff_exists.1 hsome
      obtain rfl := Option.some.inj hstep
      refine ⟨fun op s₀ hbegun _ => ?_, fun _ _ _ _ h' => absurd h' (by simp)⟩
      exact (hs.busy op s₀ p hbegun hp).1.resolve_right hguard
    · exact absurd hstep (by simp)

/-- What a host that has no process leaves behind, the next recovery that is not cut short settles without an error. -/
def Settles (V : Service ω σ ε) (settled : ω → σ → σ → Prop) (h : Host ω σ ε) : Prop :=
  ∀ op s₀, h.begun = some (op, s₀) → h.process = none →
    (V.recovery.run h.store).1 = .ok () ∧ settled op s₀ (V.recovery.run h.store).2

/-- In every run whose crashes spare the bad stores, recovery settles what the host has left behind. -/
theorem settles_of_run (hV : Recovers V crashed settled bad) {h h' : Host ω σ ε} {es : List (Event ω)} (hinit : h.begun = none)
    (hr : Run (Guarded (SparedBy bad) (ofPartial V.step)) h es h') : Settles V settled h' := by
  have hstart : Sound crashed bad h :=
    ⟨fun op s₀ hbegun => absurd hbegun (by simp [hinit]), fun op s₀ p hbegun => absurd hbegun (by simp [hinit])⟩
  intro op s₀ hbegun hnone
  exact (hV.recovery op s₀ h'.store ((hr.invariant (sound_step hV) hstart).idle op s₀ hbegun hnone)).run

/-- The operation that an event begins. -/
def Event.begun : Event ω → List ω
  | .begin op => [op]
  | _ => []

/-- The programs of a service keep an invariant on the operations that have begun and the store: the bad stores that they may leave in
between a guard spares from crashes, and only operations that it admits begin. -/
structure Keeps (V : Service ω σ ε) (guard : Host ω σ ε → Event ω → Prop) (Inv : List ω → σ → Prop) (bad : σ → Prop) : Prop where
  spared : ∀ h, guard h .crash → ¬ bad h.store
  operation : ∀ ops h op, guard h (.begin op) → V.admits op h.store = true → Inv ops h.store →
    (V.program op).Meets (fun s => Inv (ops ++ [op]) s ∨ bad s) (fun _ => Inv (ops ++ [op])) h.store
  recovery : ∀ ops s, Inv ops s → V.recovery.Meets (fun s => Inv ops s ∨ bad s) (fun _ => Inv ops) s

variable {guard : Host ω σ ε → Event ω → Prop} {Inv : List ω → σ → Prop}

/-- What holds of a host whose programs keep an invariant: without a process the store meets it; with one, the store and those
that the rest of the program leaves meet it or are bad ones, and the program ends in one that meets it. -/
structure Keeping (Inv : List ω → σ → Prop) (bad : σ → Prop) (ops : List ω) (h : Host ω σ ε) : Prop where
  idle : h.process = none → Inv ops h.store
  busy : ∀ p, h.process = some p →
    (Inv ops h.store ∨ bad h.store) ∧ p.Meets (fun s => Inv ops s ∨ bad s) (fun _ => Inv ops) h.store

/-- Every event that the guard admits keeps the invariant, on the operations begun with that of the event. -/
theorem keeping_step (hV : Keeps V guard Inv bad) {ops : List ω} {h h' : Host ω σ ε} {e : Event ω}
    (hk : Keeping Inv bad ops h) (hstep : Guarded guard (ofPartial V.step) h e h') :
    Keeping Inv bad (ops ++ e.begun) h' := by
  obtain ⟨hguard, hstep⟩ := hstep
  cases e with
  | «begin» op =>
    simp only [ofPartial, Service.step] at hstep
    split at hstep
    · rename_i hcond
      simp only [Bool.and_eq_true, Option.isNone_iff_eq_none] at hcond
      have hmeets := hV.operation ops h op hguard hcond.2 (hk.idle hcond.1)
      split at hstep
      · rename_i s rest hnext
        obtain rfl := Option.some.inj hstep
        refine ⟨fun hnone => absurd hnone (by simp), fun p hp => ?_⟩
        obtain rfl : rest = p := by simpa using hp
        exact hmeets.step hnext
      · rename_i hnext
        obtain rfl := Option.some.inj hstep
        obtain ⟨_, hend⟩ := hmeets.finished hnext
        exact ⟨fun _ => hend, fun _ hp => absurd hp (by simp)⟩
    · exact absurd hstep (by simp)
  | recover =>
    simp only [Event.begun, List.append_nil]
    simp only [ofPartial, Service.step] at hstep
    split at hstep
    · rename_i hnone
      obtain rfl := Option.some.inj hstep
      have hstore := hk.idle (by simpa using hnone)
      refine ⟨fun hnone => absurd hnone (by simp), fun p hp => ?_⟩
      obtain rfl : V.recovery = p := by simpa using hp
      exact ⟨.inl hstore, hV.recovery ops h.store hstore⟩
    · exact absurd hstep (by simp)
  | step =>
    simp only [Event.begun, List.append_nil]
    simp only [ofPartial, Service.step] at hstep
    split at hstep
    · rename_i p hp
      split at hstep
      · rename_i s rest hnext
        obtain rfl := Option.some.inj hstep
        refine ⟨fun hnone => absurd hnone (by simp), fun q hq => ?_⟩
        obtain rfl : rest = q := by simpa using hq
        exact (hk.busy p hp).2.step hnext
      · rename_i hnext
        obtain rfl := Option.some.inj hstep
        obtain ⟨_, hend⟩ := (hk.busy p hp).2.finished hnext
        exact ⟨fun _ => hend, fun _ hq => absurd hq (by simp)⟩
    · exact absurd hstep (by simp)
  | crash =>
    simp only [Event.begun, List.append_nil]
    simp only [ofPartial, Service.step] at hstep
    split at hstep
    · rename_i hsome
      obtain ⟨p, hp⟩ := Option.isSome_iff_exists.1 hsome
      obtain rfl := Option.some.inj hstep
      exact ⟨fun _ => (hk.busy p hp).1.resolve_right (hV.spared h hguard), fun _ hq => absurd hq (by simp)⟩
    · exact absurd hstep (by simp)

/-- A run that a guard admits keeps the invariant on the operations that it begins. -/
theorem keeping_of_run (hV : Keeps V guard Inv bad) {ops : List ω} {h h' : Host ω σ ε} {es : List (Event ω)}
    (hk : Keeping Inv bad ops h) (hr : Run (Guarded guard (ofPartial V.step)) h es h') :
    Keeping Inv bad (ops ++ es.flatMap Event.begun) h' := by
  induction hr with
  | nil => simpa using hk
  | snoc _ hstep ih =>
    rw [List.flatMap_append, ← List.append_assoc, List.flatMap_singleton]
    exact keeping_step hV ih hstep

/-- In every such run the store meets the invariant on the operations that have begun, unless a process has left a bad one. -/
theorem store_of_run (hV : Keeps V guard Inv bad) {h h' : Host ω σ ε} {es : List (Event ω)}
    (hidle : h.process = none) (hstore : Inv [] h.store)
    (hr : Run (Guarded guard (ofPartial V.step)) h es h') (hgood : h'.process = none ∨ ¬ bad h'.store) :
    Inv (es.flatMap Event.begun) h'.store := by
  have hstart : Keeping Inv bad [] h := ⟨fun _ => hstore, fun p hp => absurd hp (by simp [hidle])⟩
  have hkept := keeping_of_run hV hstart hr
  rw [List.nil_append] at hkept
  cases hprocess : h'.process with
  | none => exact hkept.idle hprocess
  | some p => exact (hkept.busy p hprocess).1.resolve_right (hgood.resolve_left (by simp [hprocess]))

end Hosts

end Durable

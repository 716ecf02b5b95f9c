import Foreman.Proofs.Worker.Launching

namespace Foreman

variable {σ π α : Type}

-- A client that was made, and the scopes that were open then, the innermost one first. The client
-- is gone once it is destroyed.
structure Hired (π : Type) where
  scopes : List BuildOp
  client : Option (Client π)

namespace Hired

-- The client belongs to the innermost scope, or to no operation if no scope was open.
def Attributed (hired : Hired π) : Prop :=
  ∀ client, hired.client = some client → client.buildOp = hired.scopes.headD {}

-- The same client later, if it is still there.
structure Lasts (hired later : Hired π) : Prop where
  scopes : later.scopes = hired.scopes
  buildOp : ∀ client, later.client = some client →
    ∃ earlier, hired.client = some earlier ∧ client.buildOp = earlier.buildOp

theorem Lasts.refl (hired : Hired π) : hired.Lasts hired :=
  ⟨rfl, fun client h => ⟨client, h, rfl⟩⟩

theorem Lasts.trans {hired later last : Hired π} (h : hired.Lasts later) (h' : later.Lasts last) :
    hired.Lasts last := by
  refine ⟨h'.scopes.trans h.scopes, fun client hclient => ?_⟩
  obtain ⟨between, hbetween, hop⟩ := h'.buildOp client hclient
  obtain ⟨earlier, hearlier, hop'⟩ := h.buildOp between hbetween
  exact ⟨earlier, hearlier, hop.trans hop'⟩

theorem Attributed.of_lasts {hired later : Hired π} (h : hired.Attributed)
    (hlasts : hired.Lasts later) : later.Attributed := by
  intro client hclient
  obtain ⟨earlier, hearlier, hop⟩ := hlasts.buildOp client hclient
  rw [hop, h earlier hearlier, hlasts.scopes]

end Hired

inductive ClientCall where
  | stop
  -- another client takes over, and what is left of this one is destroyed
  | move
  | destroy
deriving DecidableEq

def ClientCall.perform (shop : Workshop σ π) (client : Client π) :
    ClientCall → Act σ (Option (Client π))
  | stop => do
    let (_, client) ← client.stop shop
    pure (some client)
  | move => do
    let (client, rest) ← Client.takeOver shop {} client
    rest.drop shop
    pure (some client)
  | destroy => do
    client.drop shop
    pure none

-- A thread: what its workers are made in, its current operation, and all the clients that it made.
structure Thread (σ π : Type) where
  place : σ
  attribution : Attribution := {}
  hired : List (Hired π) := []

namespace Thread

def inside (act : Act σ α) : Act (Thread σ π) α :=
  Act.on place (fun thread place => { thread with place }) act

def enter (op : BuildOp) (thread : Thread σ π) : Thread σ π :=
  { thread with attribution := thread.attribution.enter op }

def leave (thread : Thread σ π) : Thread σ π :=
  { thread with attribution := thread.attribution.leave }

def add (hired : Hired π) (thread : Thread σ π) : Thread σ π :=
  { thread with hired := thread.hired ++ [hired] }

def tend (shop : Workshop σ π) (i : Nat) (call : ClientCall) : Act (Thread σ π) Unit := do
  match (← Act.get).hired[i]? with
  | some ⟨scopes, some client⟩ => do
    let left ← inside (call.perform shop client)
    Act.modify fun thread => { thread with hired := thread.hired.set i ⟨scopes, left⟩ }
  | _ => pure ()

end Thread

inductive Routine where
  | done
  | raise (e : Failure)
  | start (launcher : Launcher) (entryPoint directory : Text) (spec : Isolation)
  | tend (i : Nat) (call : ClientCall)
  -- the body is a scope
  | onBehalf (op : BuildOp) (body : Routine)
  -- a failure goes no further
  | guarded (body : Routine)
  | andThen (first second : Routine)

-- `scopes` are those around the routine, the innermost one first. What is started is started on
-- behalf of the current operation, whatever they are.
def Routine.run (shop : Workshop σ π) : Routine → List BuildOp → Act (Thread σ π) Unit
  | done, _ => pure ()
  | raise e, _ => Act.fail e
  | start launcher entryPoint directory spec, scopes => do
    let op := (← Act.get).attribution.current
    let client ← Thread.inside (launcher.startDaemon shop op entryPoint directory spec)
    Act.modify (Thread.add ⟨scopes, some client⟩)
  | tend i call, _ => Thread.tend shop i call
  | onBehalf op body, scopes => do
    Act.modify (Thread.enter op)
    (body.run shop (op :: scopes)).orElse fun e => do
      Act.modify Thread.leave
      Act.fail e
    Act.modify Thread.leave
  | guarded body, scopes => (body.run shop scopes).orElse fun _ => pure ()
  | andThen first second, scopes => do
    first.run shop scopes
    second.run shop scopes

-- The moments that a routine passes through, and the scopes that are open there.
inductive Routine.Passes (shop : Workshop σ π) :
    Routine → List BuildOp → Thread σ π → List BuildOp → Thread σ π → Prop where
  | begins {routine : Routine} {scopes : List BuildOp} {thread : Thread σ π} :
      Passes shop routine scopes thread scopes thread
  | ends {routine : Routine} {scopes : List BuildOp} {thread : Thread σ π} :
      Passes shop routine scopes thread scopes (routine.run shop scopes thread).state
  | onBehalf {op : BuildOp} {body : Routine} {scopes inner : List BuildOp}
      {thread moment : Thread σ π}
      (h : Passes shop body (op :: scopes) (thread.enter op) inner moment) :
      Passes shop (.onBehalf op body) scopes thread inner moment
  | guarded {body : Routine} {scopes inner : List BuildOp} {thread moment : Thread σ π}
      (h : Passes shop body scopes thread inner moment) :
      Passes shop (.guarded body) scopes thread inner moment
  | first {first second : Routine} {scopes inner : List BuildOp} {thread moment : Thread σ π}
      (h : Passes shop first scopes thread inner moment) :
      Passes shop (.andThen first second) scopes thread inner moment
  | second {first second : Routine} {scopes inner : List BuildOp}
      {thread between moment : Thread σ π}
      (hfirst : (first.run shop scopes).Yields thread (.ok ()) between)
      (h : Passes shop second scopes between inner moment) :
      Passes shop (.andThen first second) scopes thread inner moment

namespace ClientCall

variable {shop : Workshop σ π} {client left : Client π} {place after : σ}

theorem buildOp_of_stop {status : Int}
    (h : (client.stop shop).Yields place (.ok (status, left)) after) :
    left.buildOp = client.buildOp := by
  obtain ⟨spec, _ | p, op⟩ := client
  · cases h.1
    rfl
  · replace h := Act.Yields.of_within h
    obtain ⟨_, _, -, h⟩ := h.of_bind
    obtain ⟨_, _, -, h⟩ := h.of_bind
    obtain ⟨_, _, -, hleft, -⟩ := h.of_bind
    cases hleft
    rfl

theorem buildOp_of_perform {call : ClientCall}
    (h : (call.perform shop client).Yields place (.ok (some left)) after) :
    left.buildOp = client.buildOp := by
  cases call with
  | stop =>
    obtain ⟨⟨status, stopped⟩, _, hstop, hleft, -⟩ := h.of_bind
    cases hleft
    exact buildOp_of_stop hstop
  | move =>
    obtain ⟨⟨moved, rest⟩, _, ⟨hmove, -⟩, h⟩ := h.of_bind
    obtain ⟨_, _, -, hleft, -⟩ := h.of_bind
    cases hmove
    cases hleft
    rfl
  | destroy =>
    obtain ⟨_, _, -, hleft, -⟩ := h.of_bind
    cases hleft

end ClientCall

namespace Thread

variable {shop : Workshop σ π} {thread later last : Thread σ π} {scopes : List BuildOp}

-- All clients of a thread are still known later, if only as gone.
def Lasts (thread later : Thread σ π) : Prop :=
  ∀ (i : Nat) hired, thread.hired[i]? = some hired →
    ∃ after, later.hired[i]? = some after ∧ hired.Lasts after

theorem Lasts.refl (thread : Thread σ π) : thread.Lasts thread :=
  fun _ hired h => ⟨hired, h, .refl hired⟩

theorem Lasts.trans (h : thread.Lasts later) (h' : later.Lasts last) : thread.Lasts last := by
  intro i hired hhired
  obtain ⟨between, hbetween, hlasts⟩ := h i hired hhired
  obtain ⟨after, hafter, hlasts'⟩ := h' i between hbetween
  exact ⟨after, hafter, hlasts.trans hlasts'⟩

-- The current operation is that of the innermost scope, and every client belongs where it was made.
structure Faithful (scopes : List BuildOp) (thread : Thread σ π) : Prop where
  current : thread.attribution.current = scopes.headD {}
  hired : ∀ hired ∈ thread.hired, hired.Attributed

-- What a routine does to its thread.
structure Keeps (scopes : List BuildOp) (thread later : Thread σ π) : Prop where
  attribution : later.attribution = thread.attribution
  lasts : thread.Lasts later
  hired : thread.Faithful scopes → ∀ hired ∈ later.hired, hired.Attributed

theorem Keeps.refl (scopes : List BuildOp) (thread : Thread σ π) : thread.Keeps scopes thread :=
  ⟨rfl, .refl thread, Faithful.hired⟩

theorem Keeps.faithful (h : Keeps scopes thread later) (hthread : thread.Faithful scopes) :
    later.Faithful scopes :=
  ⟨h.attribution ▸ hthread.current, h.hired hthread⟩

theorem Keeps.trans (h : Keeps scopes thread later) (h' : Keeps scopes later last) :
    Keeps scopes thread last :=
  ⟨h'.attribution.trans h.attribution, h.lasts.trans h'.lasts,
    fun hthread => h'.hired (h.faithful hthread)⟩

theorem Faithful.enter (h : thread.Faithful scopes) (op : BuildOp) :
    (thread.enter op).Faithful (op :: scopes) :=
  ⟨rfl, h.hired⟩

theorem Keeps.leave {op : BuildOp} (h : Keeps (op :: scopes) (thread.enter op) later) :
    Keeps scopes thread later.leave := by
  refine ⟨?_, h.lasts, fun hthread => h.hired (hthread.enter op)⟩
  rw [Thread.leave, h.attribution]
  rfl

-- What can happen to the clients of a thread at a time. One is added, on behalf of the current
-- operation, or one changes.
inductive Step (scopes : List BuildOp) (thread : Thread σ π) : Thread σ π → Prop where
  | idle {place : σ} : Step scopes thread { thread with place }
  | added {place : σ} {client : Client π} (hop : client.buildOp = thread.attribution.current) :
      Step scopes thread
        { thread with place, hired := thread.hired ++ [⟨scopes, some client⟩] }
  | changed {place : σ} {i : Nat} {hired after : Hired π} (hget : thread.hired[i]? = some hired)
      (hlasts : hired.Lasts after) :
      Step scopes thread { thread with place, hired := thread.hired.set i after }

theorem Step.lasts (h : Step scopes thread later) : thread.Lasts later := by
  intro j hired hhired
  cases h with
  | idle => exact ⟨hired, hhired, .refl hired⟩
  | added =>
    obtain ⟨hj, -⟩ := List.getElem?_eq_some_iff.mp hhired
    refine ⟨hired, ?_, .refl hired⟩
    rw [List.getElem?_append_left hj]
    exact hhired
  | @changed _ i _ after hget hlasts =>
    by_cases hij : i = j
    · subst hij
      obtain ⟨hi, -⟩ := List.getElem?_eq_some_iff.mp hget
      cases hget.symm.trans hhired
      exact ⟨after, List.getElem?_set_self hi, hlasts⟩
    · refine ⟨hired, ?_, .refl hired⟩
      rw [List.getElem?_set_ne hij]
      exact hhired

theorem Step.keeps (h : Step scopes thread later) : Keeps scopes thread later := by
  have hlasts := h.lasts
  cases h with
  | idle => exact ⟨rfl, hlasts, Faithful.hired⟩
  | added hop =>
    refine ⟨rfl, hlasts, fun hthread hired hmem => ?_⟩
    rcases List.mem_append.mp hmem with hold | hnew
    · exact hthread.hired hired hold
    · obtain rfl := List.mem_singleton.mp hnew
      rintro client ⟨⟩
      exact hop.trans hthread.current
  | changed hget hafter =>
    refine ⟨rfl, hlasts, fun hthread hired hmem => ?_⟩
    rcases List.mem_or_eq_of_mem_set hmem with hold | rfl
    · exact hthread.hired hired hold
    · exact (hthread.hired _ (List.mem_of_getElem? hget)).of_lasts hafter

theorem yields_inside {act : Act σ α} {result : Except Failure α} {place : σ}
    (h : act.Yields thread.place result place) :
    (inside act).Yields thread result { thread with place } :=
  h.on

theorem step_start (launcher : Launcher) (entryPoint directory : Text) (spec : Isolation)
    (scopes : List BuildOp) (thread : Thread σ π) :
    Step scopes thread
      ((Routine.start launcher entryPoint directory spec).run shop scopes thread).state := by
  obtain ⟨result, place, hstart⟩ := (launcher.startDaemon shop thread.attribution.current entryPoint
    directory spec).exists_yields thread.place
  have hinside := yields_inside hstart
  rw [Routine.run, Act.get_bind]
  cases result with
  | error e =>
    rw [(hinside.bind_error _).2]
    exact .idle
  | ok client =>
    rw [(hinside.bind ⟨rfl, rfl⟩).2]
    exact .added (Launcher.client_of_yields hstart).2

theorem step_tend (i : Nat) (call : ClientCall) (scopes : List BuildOp) (thread : Thread σ π) :
    Step scopes thread (tend shop i call thread).state := by
  unfold tend
  rw [Act.get_bind]
  rcases hget : thread.hired[i]? with _ | ⟨made, _ | client⟩
  · exact .idle
  · exact .idle
  obtain ⟨result, place, hcall⟩ := (call.perform shop client).exists_yields thread.place
  have hinside := yields_inside hcall
  cases result with
  | error e =>
    dsimp only
    rw [(hinside.bind_error _).2]
    exact .idle
  | ok left =>
    dsimp only
    rw [(hinside.bind ⟨rfl, rfl⟩).2]
    refine .changed hget ⟨rfl, ?_⟩
    rintro after rfl
    exact ⟨client, rfl, ClientCall.buildOp_of_perform hcall⟩

end Thread

namespace Routine

variable {shop : Workshop σ π} {scopes inner : List BuildOp} {thread moment : Thread σ π}

theorem run_onBehalf (op : BuildOp) (body : Routine) (scopes : List BuildOp)
    (thread : Thread σ π) :
    ((onBehalf op body).run shop scopes thread).state =
      (body.run shop (op :: scopes) (thread.enter op)).state.leave := by
  obtain ⟨result, after, hbody⟩ :=
    (body.run shop (op :: scopes)).exists_yields (thread.enter op)
  have henter : (Act.modify (Thread.enter op)).Yields thread (.ok ()) (thread.enter op) :=
    ⟨rfl, rfl⟩
  rw [run, hbody.2]
  cases result with
  | error e => exact (henter.bind ((hbody.orElse_error ⟨rfl, rfl⟩).bind_error _)).2
  | ok => exact (henter.bind (hbody.orElse_ok.bind ⟨rfl, rfl⟩)).2

theorem run_guarded (body : Routine) (scopes : List BuildOp) (thread : Thread σ π) :
    ((guarded body).run shop scopes thread).state = (body.run shop scopes thread).state := by
  obtain ⟨result, after, hbody⟩ := (body.run shop scopes).exists_yields thread
  rw [run, hbody.2]
  cases result with
  | error e => exact (hbody.orElse_error ⟨rfl, rfl⟩).2
  | ok => exact hbody.orElse_ok.2

-- The induction is on the routine, inside any scopes. What a body keeps includes what its scope
-- hides, so that leaving the scope brings it back.
theorem keeps_run (routine : Routine) (scopes : List BuildOp) (thread : Thread σ π) :
    thread.Keeps scopes (routine.run shop scopes thread).state := by
  induction routine generalizing scopes thread with
  | done | raise => exact .refl scopes thread
  | start launcher entryPoint directory spec =>
    exact (Thread.step_start launcher entryPoint directory spec scopes thread).keeps
  | tend i call => exact (Thread.step_tend i call scopes thread).keeps
  | onBehalf op body ih =>
    rw [run_onBehalf]
    exact (ih (op :: scopes) (thread.enter op)).leave
  | guarded body ih =>
    rw [run_guarded]
    exact ih scopes thread
  | andThen first second ihfirst ihsecond =>
    exact Act.state_bind (R := Thread.Keeps scopes) (fun _ _ _ => .trans) (ihfirst scopes)
      (fun _ => ihsecond scopes) thread

theorem Passes.lasts {routine : Routine} (h : routine.Passes shop scopes thread inner moment) :
    thread.Lasts moment := by
  induction h with
  | begins => exact .refl _
  | @ends routine scopes thread => exact (keeps_run routine scopes thread).lasts
  | onBehalf _ ih => exact ih
  | guarded _ ih => exact ih
  | first _ ih => exact ih
  | @second first _ scopes _ thread _ _ hfirst _ ih =>
    rw [← hfirst.2] at ih
    exact (keeps_run first scopes thread).lasts.trans ih

theorem Passes.faithful {routine : Routine} (h : routine.Passes shop scopes thread inner moment)
    (hthread : thread.Faithful scopes) : moment.Faithful inner := by
  induction h with
  | begins => exact hthread
  | @ends routine scopes thread => exact (keeps_run routine scopes thread).faithful hthread
  | @onBehalf op _ _ _ _ _ _ ih => exact ih (hthread.enter op)
  | guarded _ ih => exact ih hthread
  | first _ ih => exact ih hthread
  | @second first _ scopes _ thread _ _ hfirst _ ih =>
    apply ih
    rw [← hfirst.2]
    exact (keeps_run first scopes thread).faithful hthread

-- At any moment the current operation is that of the innermost scope, and every client belongs to
-- the innermost scope at its start, or to no operation if there was none. What comes later does not
-- change this. After all scopes there is no current operation, as there was none before.
theorem attribution_in_every_run (shop : Workshop σ π) (place : σ) (routine : Routine) :
    let fresh : Thread σ π := { place }
    (routine.run shop [] fresh).state.attribution = fresh.attribution ∧
    ∀ scopes moment, routine.Passes shop [] fresh scopes moment →
      moment.attribution.current = scopes.headD {} ∧
      (∀ hired ∈ moment.hired, ∀ client, hired.client = some client →
        client.buildOp = hired.scopes.headD {}) ∧
      ∀ more last later, Passes shop more scopes moment last later → moment.Lasts later := by
  intro fresh
  have hfresh : fresh.Faithful [] := ⟨rfl, fun _ hmem => nomatch hmem⟩
  refine ⟨(keeps_run routine [] fresh).attribution, fun scopes moment hmoment => ?_⟩
  have hfaithful := hmoment.faithful hfresh
  exact ⟨hfaithful.current, hfaithful.hired, fun _ _ _ => Passes.lasts⟩

-- A worker is started inside three scopes. A failure leaves two of them, and goes no further. The
-- next worker is started inside the one that is still open.
theorem attribution_of_failed_scopes :
    let launch : Routine := .start {} "w" "" {}
    let failing : Routine := .andThen launch (.raise Launcher.noEntryPoint)
    let routine : Routine := .onBehalf { id := 1 }
      (.andThen (.guarded (.onBehalf { id := 2 } (.onBehalf { id := 3 } failing))) launch)
    let thread := (routine.run Rehearsal.workshop [] { place := { next := { name := "w" } } }).state
    thread.attribution = {} ∧
      thread.hired.map Hired.scopes =
        [[{ id := 3 }, { id := 2 }, { id := 1 }], [{ id := 1 }]] ∧
      ∀ hired ∈ thread.hired, ∀ client, hired.client = some client →
        client.buildOp = hired.scopes.headD {} := by
  intro launch failing routine thread
  obtain ⟨hback, hmoments⟩ :=
    attribution_in_every_run Rehearsal.workshop { next := { name := "w" } } routine
  obtain ⟨-, hhired, -⟩ := hmoments [] thread .ends
  exact ⟨hback, rfl, hhired⟩

end Routine

end Foreman

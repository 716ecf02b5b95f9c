import Foreman.Proofs.Worker.Launching

namespace Foreman

variable {σ π α : Type}

namespace Client

def holds (number : Nat) (client : Client (Numbered π)) : Bool :=
  client.process.any fun p => p.number = number

theorem holds_of_process {client : Client (Numbered π)} {p : Numbered π}
    (h : client.process = some p) (number : Nat) :
    client.holds number = decide (p.number = number) := by
  rw [holds, h]
  rfl

theorem not_holds_of_empty {client : Client (Numbered π)} (h : client.process = none)
    (number : Nat) : client.holds number = false := by
  rw [holds, h]
  rfl

end Client

def HoldsNothing (place : Option (Client (Numbered π))) : Prop :=
  ∀ client, place = some client → client.process = none

-- A workshop with a record, and the clients that were made. A client that is destroyed leaves a
-- gap.
structure Pool (σ π : Type) where
  ledger : Ledger σ
  clients : List (Option (Client (Numbered π))) := []

namespace Pool

def client? (pool : Pool σ π) (i : Nat) : Option (Client (Numbered π)) :=
  pool.clients[i]?.join

def put (i : Nat) (left : Option (Client (Numbered π))) (pool : Pool σ π) : Pool σ π :=
  { pool with clients := pool.clients.set i left }

def add (client : Client (Numbered π)) (pool : Pool σ π) : Pool σ π :=
  { pool with clients := pool.clients ++ [some client] }

def holders (pool : Pool σ π) (number : Nat) : Nat :=
  pool.clients.countP (Option.any (Client.holds number))

-- A client that was made and holds nothing any more, or the gap that it left.
structure Vacant (pool : Pool σ π) (i : Nat) : Prop where
  made : i < pool.clients.length
  empty : HoldsNothing (pool.client? i)

def inside (act : Act (Ledger σ) α) : Act (Pool σ π) α :=
  Act.on ledger (fun pool ledger => { pool with ledger }) act

def visit (i : Nat) (act : Client (Numbered π) → Act (Pool σ π) Unit) : Act (Pool σ π) Unit := do
  match (← Act.get).client? i with
  | none => pure ()
  | some client => act client

end Pool

inductive PoolCall where
  | start (launcher : Launcher) (op : BuildOp) (entryPoint directory : Text) (spec : Isolation)
  | stop (i : Nat)
  -- a new client is made of another one
  | move (i : Nat)
  | destroy (i : Nat)

def PoolCall.perform (shop : Workshop σ π) : PoolCall → Act (Pool σ π) Unit
  | start launcher op entryPoint directory spec => do
    let client ← Pool.inside (launcher.startDaemon shop.recorded op entryPoint directory spec)
    Act.modify (Pool.add client)
  | stop i => Pool.visit i fun client => do
    let (_, client) ← Pool.inside (client.stop shop.recorded)
    Act.modify (Pool.put i (some client))
  | move i => Pool.visit i fun client =>
    Act.modify fun pool => (pool.put i (some client.remains)).add client
  | destroy i => Pool.visit i fun client => do
    Pool.inside (client.drop shop.recorded)
    Act.modify (Pool.put i none)

-- How far a process can be in its life, and how many clients hold it there.
inductive Station : List Deed → Nat → Prop where
  | unbuilt : Station [] 0
  | refused : Station [.built, .refused, .discarded] 0
  | held : Station [.built, .started] 1
  | released : Station [.built, .started, .stopped, .discarded] 0

namespace Station

theorem of_unbuilt {count : Nat} (h : Station [] count) : count = 0 := by
  cases h
  rfl

theorem of_holder {life : List Deed} {count : Nat} (h : Station life count) (hpos : 0 < count) :
    life = [.built, .started] ∧ count = 1 := by
  cases h with
  | held => exact ⟨rfl, rfl⟩
  | unbuilt | refused | released => exact absurd hpos (Nat.lt_irrefl 0)

theorem of_no_holder {life : List Deed} (h : Station life 0) (hstarted : .started ∈ life) :
    life = [.built, .started, .stopped, .discarded] := by
  cases h with
  | released => rfl
  | unbuilt => cases hstarted
  | refused => exact absurd hstarted (by decide)

end Station

theorem Ledger.life_of_deeds {ledger later : Ledger σ} {m : Nat} {new : List Deed}
    (h : later.deeds = ledger.deeds ++ new.map (m, ·)) (n : Nat) :
    later.life n = ledger.life n ++ if m = n then new else [] := by
  have hnew : ((new.map (m, ·)).filter fun e => e.1 = n).map Prod.snd =
      if m = n then new else [] := by
    by_cases hm : m = n
    · simp [hm, List.filter_map, Function.comp_def]
    · simp [hm, List.filter_map, Function.comp_def]
  rw [life, h, List.filter_append, List.map_append, hnew, life]

namespace Pool

variable {shop : Workshop σ π} {pool later : Pool σ π}

-- What a call can do. `left` is what is left of a client that lets go of what it holds.
inductive Step (pool : Pool σ π) : Pool σ π → Prop where
  | idle {place : σ} {asked : List LaunchSpec} :
      Step pool { pool with ledger := { pool.ledger with place, asked } }
  | refused {place : σ} {asked : List LaunchSpec} :
      Step pool { pool with
        ledger := { place, asked, built := pool.ledger.built + 1,
                    deeds := pool.ledger.deeds ++ [.built, .refused, .discarded].map
                      (pool.ledger.built, ·) } }
  | started {place : σ} {asked : List LaunchSpec} {client : Client (Numbered π)} {p : π}
      (hprocess : client.process = some ⟨pool.ledger.built, p⟩) :
      Step pool
        { ledger := { place, asked, built := pool.ledger.built + 1,
                      deeds := pool.ledger.deeds ++ [.built, .started].map
                        (pool.ledger.built, ·) }
          clients := pool.clients ++ [some client] }
  | moved {i : Nat} {client : Client (Numbered π)} (hclient : pool.client? i = some client) :
      Step pool ((pool.put i (some client.remains)).add client)
  | vacated {i : Nat} {client : Client (Numbered π)} {left : Option (Client (Numbered π))}
      (hclient : pool.client? i = some client) (hempty : client.process = none)
      (hleft : HoldsNothing left) : Step pool (pool.put i left)
  | released {i : Nat} {client : Client (Numbered π)} {left : Option (Client (Numbered π))}
      {p : Numbered π} {place : σ} (hclient : pool.client? i = some client)
      (hprocess : client.process = some p) (hleft : HoldsNothing left) :
      Step pool
        { ledger := { pool.ledger with
                      place, deeds := pool.ledger.deeds ++ [.stopped, .discarded].map
                        (p.number, ·) }
          clients := pool.clients.set i left }

theorem yields_inside {act : Act (Ledger σ) α} {result : Except Failure α} {ledger : Ledger σ}
    (h : act.Yields pool.ledger result ledger) :
    (inside act).Yields pool result { pool with ledger } :=
  h.on

theorem step_visit_of_none {i : Nat} (h : pool.client? i = none)
    (act : Client (Numbered π) → Act (Pool σ π) Unit) : pool.Step (visit i act pool).state := by
  rw [visit, Act.get_bind, h]
  exact .idle

theorem visit_of_some {i : Nat} {client : Client (Numbered π)} (h : pool.client? i = some client)
    (act : Client (Numbered π) → Act (Pool σ π) Unit) :
    visit i act pool = act client pool := by
  rw [visit, Act.get_bind, h]

end Pool

theorem Client.stop_of_empty (shop : Workshop σ π) {client : Client π} (h : client.process = none)
    (s : σ) : client.stop shop s = ⟨.ok (0, client), s, []⟩ := by
  rw [stop, h]
  rfl

theorem Workshop.Dependable.yields_release {shop : Workshop σ π} (h : shop.Dependable)
    {client : Client (Numbered π)} {p : Numbered π} (hprocess : client.process = some p)
    (ledger : Ledger σ) :
    ∃ status place, (client.stop shop.recorded).Yields ledger
      (.ok (status, { client with process := none }))
      { ledger with
        place, deeds := ledger.deeds ++ [.stopped, .discarded].map (p.number, ·) } := by
  obtain ⟨status, place, hstop⟩ := h.yields_stop p ledger
  obtain ⟨place, hdiscard⟩ := h.yields_discard p
    { ledger with place, deeds := ledger.deeds ++ [(p.number, .stopped)] }
  refine ⟨status, place, ?_⟩
  rw [Client.stop, hprocess]
  refine .within (hstop.bind (hdiscard.bind (.bind ⟨rfl, rfl⟩ ⟨rfl, ?_⟩)))
  simp only [List.append_assoc, List.map_cons, List.map_nil, List.cons_append, List.nil_append]
  rfl

namespace Pool

variable {shop : Workshop σ π} {pool later : Pool σ π}

theorem step_start (h : shop.Dependable) (launcher : Launcher) (op : BuildOp)
    (entryPoint directory : Text) (spec : Isolation) (pool : Pool σ π) :
    pool.Step ((PoolCall.start launcher op entryPoint directory spec).perform shop pool).state := by
  have hlaunches := launcher.launches h op entryPoint directory spec pool.ledger
  have hyields : (launcher.startDaemon shop.recorded op entryPoint directory spec).Yields
    pool.ledger _ _ := ⟨rfl, rfl⟩
  generalize (launcher.startDaemon shop.recorded op entryPoint directory spec pool.ledger).result =
    result at hlaunches hyields
  generalize (launcher.startDaemon shop.recorded op entryPoint directory spec pool.ledger).state =
    ledger at hlaunches hyields
  have hinside := yields_inside hyields
  have hfailed (e : Failure) (hresult : result = .error e) :
      ((PoolCall.start launcher op entryPoint directory spec).perform shop pool).state =
        { pool with ledger } := by
    subst hresult
    exact (hinside.bind_error _).2
  cases hlaunches with
  | invalid | unbuilt =>
    rw [hfailed _ rfl]
    exact .idle
  | refused =>
    rw [hfailed _ rfl]
    exact .refused
  | started =>
    rw [PoolCall.perform, (hinside.bind ⟨rfl, rfl⟩).2]
    exact .started rfl

theorem step_letGo (h : shop.Dependable) {i : Nat} {client : Client (Numbered π)}
    {left : Option (Client (Numbered π))} (hclient : pool.client? i = some client)
    (hleft : HoldsNothing left) :
    pool.Step ⟨(client.stop shop.recorded pool.ledger).state, pool.clients.set i left⟩ := by
  cases hprocess : client.process with
  | none =>
    rw [Client.stop_of_empty _ hprocess]
    exact .vacated hclient hprocess hleft
  | some p =>
    obtain ⟨status, place, hrelease⟩ := h.yields_release hprocess pool.ledger
    rw [hrelease.2]
    exact .released hclient hprocess hleft

theorem yields_stop_client (h : shop.Dependable) (client : Client (Numbered π))
    (ledger : Ledger σ) :
    ∃ status left, left.process = none ∧ (client.stop shop.recorded).Yields ledger
      (.ok (status, left)) (client.stop shop.recorded ledger).state := by
  cases hprocess : client.process with
  | none =>
    refine ⟨0, client, hprocess, ?_, rfl⟩
    rw [Client.stop_of_empty _ hprocess]
  | some p =>
    obtain ⟨status, place, hrelease⟩ := h.yields_release hprocess ledger
    exact ⟨status, _, rfl, hrelease.1, rfl⟩

theorem perform_stop (h : shop.Dependable) {i : Nat} {client : Client (Numbered π)}
    (hclient : pool.client? i = some client) :
    ∃ left, HoldsNothing (some left) ∧ ((PoolCall.stop i).perform shop pool).state =
      ⟨(client.stop shop.recorded pool.ledger).state, pool.clients.set i (some left)⟩ := by
  obtain ⟨status, left, hleft, hstop⟩ := yields_stop_client h client pool.ledger
  refine ⟨left, fun _ hc => Option.some.inj hc ▸ hleft, ?_⟩
  rw [PoolCall.perform, visit_of_some hclient, ((yields_inside hstop).bind ⟨rfl, rfl⟩).2]
  rfl

theorem perform_destroy (h : shop.Dependable) {i : Nat} {client : Client (Numbered π)}
    (hclient : pool.client? i = some client) :
    ((PoolCall.destroy i).perform shop pool).state =
      ⟨(client.stop shop.recorded pool.ledger).state, pool.clients.set i none⟩ := by
  obtain ⟨status, left, -, hstop⟩ := yields_stop_client h client pool.ledger
  have hdrop : (client.drop shop.recorded).Yields pool.ledger (.ok ()) _ := hstop.bind ⟨rfl, rfl⟩
  rw [PoolCall.perform, visit_of_some hclient, ((yields_inside hdrop).bind ⟨rfl, rfl⟩).2]
  rfl

theorem step_perform (h : shop.Dependable) (call : PoolCall) (pool : Pool σ π) :
    pool.Step (call.perform shop pool).state := by
  cases call with
  | start launcher op entryPoint directory spec =>
    exact step_start h launcher op entryPoint directory spec pool
  | stop i =>
    cases hclient : pool.client? i with
    | none => exact step_visit_of_none hclient _
    | some client =>
      obtain ⟨left, hleft, hperform⟩ := perform_stop h hclient
      rw [hperform]
      exact step_letGo h hclient hleft
  | move i =>
    cases hclient : pool.client? i with
    | none => exact step_visit_of_none hclient _
    | some client =>
      rw [PoolCall.perform, visit_of_some hclient]
      exact .moved hclient
  | destroy i =>
    cases hclient : pool.client? i with
    | none => exact step_visit_of_none hclient _
    | some client =>
      rw [perform_destroy h hclient]
      exact step_letGo h hclient fun _ hc => nomatch hc

theorem clients_of_client? {i : Nat} {client : Client (Numbered π)}
    (h : pool.client? i = some client) :
    ∃ hi : i < pool.clients.length, pool.clients[i] = some client := by
  have hget : pool.clients[i]? = some (some client) := Option.join_eq_some_iff.mp h
  exact List.getElem?_eq_some_iff.mp hget

theorem holders_add (pool : Pool σ π) (client : Client (Numbered π)) (n : Nat) :
    (pool.add client).holders n = pool.holders n + if client.holds n then 1 else 0 := by
  rw [holders, add, List.countP_append, List.countP_singleton]
  rfl

theorem holders_put {i : Nat} {client : Client (Numbered π)} (h : pool.client? i = some client)
    (left : Option (Client (Numbered π))) (n : Nat) :
    (pool.put i left).holders n + (if client.holds n then 1 else 0) =
      pool.holders n + if left.any (Client.holds n) then 1 else 0 := by
  obtain ⟨hi, hget⟩ := clients_of_client? h
  have hle := List.boole_getElem_le_countP (p := Option.any (Client.holds n)) hi
  rw [hget, Option.any_some] at hle
  rw [holders, put, List.countP_set hi, hget, Option.any_some, holders]
  omega

theorem not_any_holds {left : Option (Client (Numbered π))} (h : HoldsNothing left) (n : Nat) :
    left.any (Client.holds n) = false := by
  cases left with
  | none => rfl
  | some c => exact Client.not_holds_of_empty (h c rfl) n

theorem remains_empty (client : Client (Numbered π)) : HoldsNothing (some client.remains) := by
  rintro _ ⟨⟩
  rfl

-- Moving a client changes who holds its process, and not how many do.
theorem holders_moved {i : Nat} {client : Client (Numbered π)} (h : pool.client? i = some client)
    (n : Nat) :
    ((pool.put i (some client.remains)).add client).holders n = pool.holders n := by
  have hput := holders_put h (some client.remains) n
  rw [not_any_holds (remains_empty client)] at hput
  rw [holders_add]
  exact hput

theorem holders_vacated {i : Nat} {client : Client (Numbered π)}
    {left : Option (Client (Numbered π))} (h : pool.client? i = some client)
    (hempty : client.process = none) (hleft : HoldsNothing left) (n : Nat) :
    (pool.put i left).holders n = pool.holders n := by
  have hput := holders_put h left n
  rw [not_any_holds hleft, Client.not_holds_of_empty hempty] at hput
  exact hput

theorem holders_released {i : Nat} {client : Client (Numbered π)}
    {left : Option (Client (Numbered π))} {p : Numbered π} (h : pool.client? i = some client)
    (hprocess : client.process = some p) (hleft : HoldsNothing left) (n : Nat) :
    (pool.put i left).holders n + (if p.number = n then 1 else 0) = pool.holders n := by
  have hput := holders_put h left n
  simp only [Client.holds_of_process hprocess, not_any_holds hleft, decide_eq_true_eq,
    Bool.false_eq_true, ite_false, Nat.add_zero] at hput
  exact hput

-- Every process is at a station, and those to come are not on record yet.
structure Orderly (pool : Pool σ π) : Prop where
  station : ∀ n, Station (pool.ledger.life n) (pool.holders n)
  unbuilt : ∀ n, pool.ledger.built ≤ n → pool.ledger.life n = []

theorem Orderly.empty (place : σ) : ({ ledger := { place } } : Pool σ π).Orderly :=
  ⟨fun _ => .unbuilt, fun _ _ => rfl⟩

theorem Orderly.advance (h : pool.Orderly) {m : Nat} {new : List Deed}
    (hdeeds : later.ledger.deeds = pool.ledger.deeds ++ new.map (m, ·))
    (hbuilt : pool.ledger.built ≤ later.ledger.built) (hm : m < later.ledger.built)
    (hstation : Station (pool.ledger.life m ++ new) (later.holders m))
    (hothers : ∀ n, m ≠ n → later.holders n = pool.holders n) : later.Orderly := by
  have hlife := Ledger.life_of_deeds hdeeds
  refine ⟨fun n => ?_, fun n hn => ?_⟩
  · rw [hlife]
    by_cases hmn : m = n
    · subst hmn
      rw [if_pos rfl]
      exact hstation
    · rw [if_neg hmn, List.append_nil, hothers n hmn]
      exact h.station n
  · have hmn : m ≠ n := by omega
    rw [hlife, if_neg hmn, List.append_nil]
    exact h.unbuilt n (Nat.le_trans hbuilt hn)

theorem Orderly.of_holders (h : pool.Orderly) (hledger : later.ledger = pool.ledger)
    (hholders : ∀ n, later.holders n = pool.holders n) : later.Orderly := by
  refine ⟨fun n => ?_, ?_⟩
  · rw [hledger, hholders]
    exact h.station n
  · rw [hledger]
    exact h.unbuilt

theorem Orderly.of_holder (h : pool.Orderly) {i : Nat} {client : Client (Numbered π)}
    {p : Numbered π} (hclient : pool.client? i = some client) (hprocess : client.process = some p) :
    p.number < pool.ledger.built ∧ pool.holders p.number = 1 ∧
      pool.ledger.life p.number = [.built, .started] := by
  have hgone : HoldsNothing (none : Option (Client (Numbered π))) := fun _ hc => nomatch hc
  have hone := holders_released hclient hprocess hgone p.number
  rw [if_pos rfl] at hone
  obtain ⟨hlife, hcount⟩ := (h.station p.number).of_holder (by omega)
  refine ⟨?_, hcount, hlife⟩
  apply Nat.lt_of_not_le
  intro hle
  rw [h.unbuilt _ hle] at hlife
  cases hlife

-- A call changes the life of one process at most, and takes it from a station to the next.
theorem Orderly.step (h : pool.Orderly) (hstep : pool.Step later) : later.Orderly := by
  have hnext : pool.ledger.life pool.ledger.built = [] := h.unbuilt _ (Nat.le_refl _)
  have hnobody : pool.holders pool.ledger.built = 0 :=
    (hnext ▸ h.station pool.ledger.built).of_unbuilt
  cases hstep with
  | idle => exact ⟨h.station, h.unbuilt⟩
  | refused =>
    refine h.advance rfl (Nat.le_succ _) (Nat.lt_succ_self _) ?_ fun _ _ => rfl
    change Station (pool.ledger.life pool.ledger.built ++ _) (pool.holders pool.ledger.built)
    rw [hnext, hnobody]
    exact .refused
  | @started _ _ client p hprocess =>
    have hholders (n : Nat) := holders_add pool client n
    simp only [Client.holds_of_process hprocess, decide_eq_true_eq] at hholders
    refine h.advance rfl (Nat.le_succ _) (Nat.lt_succ_self _) ?_ fun n hn => ?_
    · change Station _ ((pool.add client).holders pool.ledger.built)
      rw [hnext, hholders, hnobody, if_pos rfl]
      exact .held
    · change (pool.add client).holders n = _
      rw [hholders, if_neg hn, Nat.add_zero]
  | moved hclient => exact h.of_holders rfl (holders_moved hclient)
  | vacated hclient hempty hleft =>
    exact h.of_holders rfl (holders_vacated hclient hempty hleft)
  | @released i client left p place hclient hprocess hleft =>
    have hput := holders_released hclient hprocess hleft
    obtain ⟨hm, hcount, hlife⟩ := h.of_holder hclient hprocess
    refine h.advance rfl (Nat.le_refl _) hm ?_ fun n hn => ?_
    · have hone := hput p.number
      rw [if_pos rfl, hcount] at hone
      have hnone : (pool.put i left).holders p.number = 0 := Nat.succ.inj hone
      change Station _ ((pool.put i left).holders p.number)
      rw [hlife, hnone]
      exact .released
    · have hother := hput n
      rw [if_neg hn, Nat.add_zero] at hother
      exact hother

theorem Step.deeds_extend (h : pool.Step later) : pool.ledger.deeds <+: later.ledger.deeds := by
  cases h with
  | idle | moved | vacated => exact List.prefix_refl _
  | refused | started | released => exact List.prefix_append _ _

theorem vacant_put {i : Nat} (hi : i < pool.clients.length)
    {left : Option (Client (Numbered π))} (hleft : HoldsNothing left) :
    (pool.put i left).Vacant i := by
  refine ⟨?_, fun c hc => ?_⟩
  · rw [put, List.length_set]
    exact hi
  · obtain ⟨_, hget⟩ := clients_of_client? hc
    simp only [put, List.getElem_set_self] at hget
    exact hleft c hget

theorem Vacant.put {i : Nat} (h : pool.Vacant i) (j : Nat)
    {left : Option (Client (Numbered π))} (hleft : HoldsNothing left) :
    (pool.put j left).Vacant i := by
  by_cases hji : j = i
  · subst hji
    exact vacant_put h.made hleft
  · refine ⟨?_, fun c hc => h.empty c ?_⟩
    · rw [Pool.put, List.length_set]
      exact h.made
    · rw [client?, Pool.put, List.getElem?_set_ne hji] at hc
      exact hc

theorem Vacant.add {i : Nat} (h : pool.Vacant i) (client : Client (Numbered π)) :
    (pool.add client).Vacant i := by
  refine ⟨?_, fun c hc => h.empty c ?_⟩
  · rw [Pool.add, List.length_append]
    exact Nat.lt_add_right _ h.made
  · rw [client?, Pool.add, List.getElem?_append_left h.made] at hc
    exact hc

theorem Vacant.step {i : Nat} (h : pool.Vacant i) (hstep : pool.Step later) : later.Vacant i := by
  cases hstep with
  | idle | refused => exact ⟨h.made, h.empty⟩
  | started =>
    have hadd := h.add
    exact ⟨(hadd _).made, (hadd _).empty⟩
  | @moved j client => exact (h.put j (remains_empty client)).add client
  | @vacated j _ left _ _ hleft => exact h.put j hleft
  | @released j _ left _ _ _ _ hleft =>
    have hput := h.put j hleft
    exact ⟨hput.made, hput.empty⟩

theorem vacant_of_stop (h : shop.Dependable) {i : Nat} {client : Client (Numbered π)}
    (hclient : pool.client? i = some client) :
    ((PoolCall.stop i).perform shop pool).state.Vacant i := by
  obtain ⟨hi, -⟩ := clients_of_client? hclient
  obtain ⟨left, hleft, hperform⟩ := perform_stop h hclient
  rw [hperform]
  have hput : (pool.put i (some left)).Vacant i := vacant_put hi hleft
  exact ⟨hput.made, hput.empty⟩

theorem vacant_of_move {i : Nat} {client : Client (Numbered π)}
    (hclient : pool.client? i = some client) :
    ((PoolCall.move i).perform shop pool).state.Vacant i := by
  obtain ⟨hi, -⟩ := clients_of_client? hclient
  rw [PoolCall.perform, visit_of_some hclient]
  exact (vacant_put hi (remains_empty client)).add client

def after (shop : Workshop σ π) (pool : Pool σ π) (calls : List PoolCall) : Pool σ π :=
  calls.foldl (fun pool call => (call.perform shop pool).state) pool

theorem after_induction (hshop : shop.Dependable) {P : Pool σ π → Prop}
    (hkept : ∀ pool later, P pool → pool.Step later → P later) (calls : List PoolCall)
    (h : P pool) : P (pool.after shop calls) := by
  induction calls generalizing pool with
  | nil => exact h
  | cons call calls ih => exact ih (hkept _ _ h (step_perform hshop call pool))

theorem Orderly.after (hshop : shop.Dependable) (h : pool.Orderly) (calls : List PoolCall) :
    (pool.after shop calls).Orderly :=
  after_induction hshop (fun _ _ => Orderly.step) calls h

theorem Vacant.after (hshop : shop.Dependable) {i : Nat} (h : pool.Vacant i)
    (calls : List PoolCall) : (pool.after shop calls).Vacant i :=
  after_induction hshop (P := fun pool => pool.Vacant i) (fun _ _ => Vacant.step) calls h

theorem life_after (hshop : shop.Dependable) (pool : Pool σ π) (calls : List PoolCall) (n : Nat) :
    pool.ledger.life n <+: (pool.after shop calls).ledger.life n := by
  have hdeeds : pool.ledger.deeds <+: (pool.after shop calls).ledger.deeds :=
    after_induction hshop (P := fun later => pool.ledger.deeds <+: later.ledger.deeds)
      (fun _ _ hextends hstep => hextends.trans hstep.deeds_extend) calls (List.prefix_refl _)
  exact (hdeeds.filter _).map _

theorem holders_of_gone (h : ∀ i, pool.client? i = none) (n : Nat) : pool.holders n = 0 := by
  rw [holders, List.countP_eq_zero]
  intro place hplace
  obtain ⟨i, hi, rfl⟩ := List.getElem_of_mem hplace
  have hgone := h i
  rw [client?, List.getElem?_eq_getElem hi, Option.join_some] at hgone
  rw [hgone, Option.any_none]
  exact Bool.false_ne_true

-- At any time a process is at one of its stations, which say how many clients hold it, and it never
-- goes back. A client that is stopped or moved from is empty from then on, and stopping it again
-- does nothing. When all clients are gone, every process that was started was stopped once, and
-- given up then.
theorem ownership_in_every_run (h : shop.Dependable) (place : σ) (calls : List PoolCall) :
    let pool := after shop { ledger := { place } } calls
    (∀ n, Station (pool.ledger.life n) (pool.holders n)) ∧
    (∀ n more, pool.ledger.life n <+: (pool.after shop more).ledger.life n) ∧
    (∀ i client call more later, pool.client? i = some client →
      (call = .stop i ∨ call = .move i) →
      (pool.after shop (call :: more)).client? i = some later →
      later.process = none ∧
        ∀ ledger, later.stop shop.recorded ledger = ⟨.ok (0, later), ledger, []⟩) ∧
    ((∀ i, pool.client? i = none) → ∀ n, .started ∈ pool.ledger.life n →
      pool.ledger.life n = [.built, .started, .stopped, .discarded]) := by
  intro pool
  have horderly : pool.Orderly := (Orderly.empty place).after h calls
  refine ⟨horderly.station, fun n more => life_after h pool more n, ?_, ?_⟩
  · intro i client call more later hclient hcall hlater
    have hvacant : (call.perform shop pool).state.Vacant i := by
      rcases hcall with rfl | rfl
      · exact vacant_of_stop h hclient
      · exact vacant_of_move hclient
    have hempty : later.process = none := (hvacant.after h more).empty later hlater
    exact ⟨hempty, Client.stop_of_empty shop.recorded hempty⟩
  · intro hgone n hstarted
    have hstation := horderly.station n
    rw [holders_of_gone hgone] at hstation
    exact hstation.of_no_holder hstarted

-- A client is moved before it is stopped. Both clients are destroyed then, and the second one is
-- already empty.
theorem ownership_of_moved_client :
    Rehearsal.workshop.Dependable ∧
      (after Rehearsal.workshop { ledger := { place := { next := { name := "w" } } } }
        [.start {} {} "w" "" {}, .move 0, .stop 1, .destroy 0, .destroy 1]).ledger.life 0 =
          [.built, .started, .stopped, .discarded] := by
  obtain ⟨-, -, -, hend⟩ := ownership_in_every_run Rehearsal.dependable
    { next := { name := "w" } } [.start {} {} "w" "" {}, .move 0, .stop 1, .destroy 0, .destroy 1]
  refine ⟨Rehearsal.dependable, hend (fun i => ?_) 0 (by decide)⟩
  match i with
  | 0 => rfl
  | 1 => rfl
  | i + 2 => rfl

end Pool

end Foreman

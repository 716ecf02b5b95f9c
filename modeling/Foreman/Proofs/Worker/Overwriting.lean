import Foreman.Proofs.Worker.Ownership
import Foreman.Proofs.Worker.Readiness

namespace Foreman

variable {σ π : Type} {shop : Workshop σ π}

namespace Client

variable {client other : Client (Numbered π)} {p : Numbered π}

theorem yields_takeOver (h : shop.Dependable) (hprocess : client.process = some p)
    (other : Client (Numbered π)) (ledger : Ledger σ) :
    ∃ place, (client.takeOver shop.recorded other).Yields ledger (.ok (other, other.remains))
      { ledger with place, deeds := ledger.deeds ++ [.discarded].map (p.number, ·) } := by
  obtain ⟨place, hdiscard⟩ := h.yields_discard p ledger
  refine ⟨place, ?_⟩
  rw [takeOver, hprocess]
  exact hdiscard.bind ⟨rfl, rfl⟩

end Client

namespace Pool

variable {pool later : Pool σ π} {i j : Nat} {client other : Client (Numbered π)}
  {p q : Numbered π}

def overwrite (shop : Workshop σ π) (i j : Nat) : Act (Pool σ π) Unit :=
  visit i fun client => visit j fun other => do
    let (client, rest) ← Pool.inside (client.takeOver shop.recorded other)
    Act.modify fun pool => (pool.put i (some client)).put j (some rest)

theorem state_overwrite (h : shop.Dependable) (hclient : pool.client? i = some client)
    (hother : pool.client? j = some other) (hprocess : client.process = some p) :
    ∃ place, (overwrite shop i j pool).state =
      { (pool.put i (some other)).put j (some other.remains) with
        ledger := { pool.ledger with
          place, deeds := pool.ledger.deeds ++ [.discarded].map (p.number, ·) } } := by
  obtain ⟨place, htakeOver⟩ := Client.yields_takeOver h hprocess other pool.ledger
  refine ⟨place, ?_⟩
  rw [overwrite, visit_of_some hclient, visit_of_some hother,
    ((yields_inside htakeOver).bind ⟨rfl, rfl⟩).2]
  rfl

-- A process that was built and that nobody holds is left alone.
structure Left (pool : Pool σ π) (n : Nat) (life : List Deed) : Prop where
  built : n < pool.ledger.built
  unheld : pool.holders n = 0
  life : pool.ledger.life n = life

theorem Left.step {n : Nat} {life : List Deed} (h : pool.Left n life) (hstep : pool.Step later) :
    later.Left n life := by
  have hnew : pool.ledger.built ≠ n := Nat.ne_of_gt h.built
  cases hstep with
  | idle => exact ⟨h.built, h.unheld, h.life⟩
  | refused =>
    refine ⟨Nat.lt_succ_of_lt h.built, h.unheld, ?_⟩
    rw [Ledger.life_of_deeds rfl, if_neg hnew, List.append_nil]
    exact h.life
  | @started _ _ client _ hprocess =>
    have hadd := holders_add pool client n
    rw [Client.holds_of_process hprocess, decide_eq_false hnew, h.unheld] at hadd
    refine ⟨Nat.lt_succ_of_lt h.built, hadd, ?_⟩
    rw [Ledger.life_of_deeds rfl, if_neg hnew, List.append_nil]
    exact h.life
  | moved hclient => exact ⟨h.built, (holders_moved hclient n).trans h.unheld, h.life⟩
  | vacated hclient hempty hleft =>
    exact ⟨h.built, (holders_vacated hclient hempty hleft n).trans h.unheld, h.life⟩
  | @released i client left p place hclient hprocess hleft =>
    have hput := holders_released hclient hprocess hleft n
    rw [h.unheld] at hput
    obtain ⟨hunheld, hother⟩ := Nat.add_eq_zero_iff.mp hput
    have hp : p.number ≠ n := fun heq => by simp [heq] at hother
    refine ⟨h.built, hunheld, ?_⟩
    rw [Ledger.life_of_deeds rfl, if_neg hp, List.append_nil]
    exact h.life

theorem Left.after (hshop : shop.Dependable) {n : Nat} {life : List Deed} (h : pool.Left n life)
    (calls : List PoolCall) : (pool.after shop calls).Left n life :=
  after_induction hshop (P := fun pool => pool.Left n life) (fun _ _ => Left.step) calls h

theorem client?_put_self (h : pool.client? i = some client) (left : Client (Numbered π)) :
    (pool.put i (some left)).client? i = some left := by
  obtain ⟨hi, -⟩ := clients_of_client? h
  rw [client?, put, List.getElem?_set_self hi]
  rfl

theorem client?_put_other (hij : i ≠ j) (left : Option (Client (Numbered π))) :
    (pool.put i left).client? j = pool.client? j := by
  rw [client?, put, List.getElem?_set_ne hij]
  rfl

-- Whenever a client takes over from another one, it holds what that one held, and that one nothing.
-- Its own process is given up, and this is the last that happens to it. It is never stopped.
theorem overwriting_in_every_run (h : shop.Dependable) (place : σ) (calls : List PoolCall)
    (hclient : (after shop { ledger := { place } } calls).client? i = some client)
    (hprocess : client.process = some p)
    (hother : (after shop { ledger := { place } } calls).client? j = some other)
    (hdistinct : other.holds p.number = false) :
    let pool := after shop { ledger := { place } } calls
    let taken := (overwrite shop i j pool).state
    (taken.client? i = some other ∧ taken.client? j = some other.remains ∧
      other.remains.process = none) ∧
    (∀ n, p.number ≠ n → taken.ledger.life n = pool.ledger.life n) ∧
    pool.ledger.life p.number = [.built, .started] ∧
    ∀ more, (taken.after shop more).ledger.life p.number = [.built, .started, .discarded] := by
  intro pool taken
  have horderly : pool.Orderly := (Orderly.empty place).after h calls
  obtain ⟨hbuilt, hcount, hlife⟩ := horderly.of_holder hclient hprocess
  have hij : i ≠ j := by
    rintro rfl
    cases hclient.symm.trans hother
    rw [Client.holds_of_process hprocess, decide_eq_false_iff_not] at hdistinct
    exact hdistinct rfl
  have hnext : (pool.put i (some other)).client? j = some other :=
    (client?_put_other hij (some other)).trans hother
  obtain ⟨left, htaken⟩ : ∃ left, taken = _ := state_overwrite h hclient hother hprocess
  have hlater (n : Nat) :
      taken.ledger.life n = pool.ledger.life n ++ if p.number = n then [.discarded] else [] := by
    rw [htaken]
    exact Ledger.life_of_deeds rfl n
  have hleft : taken.Left p.number [.built, .started, .discarded] := by
    refine ⟨?_, ?_, ?_⟩
    · rw [htaken]
      exact hbuilt
    · have hfirst := holders_put hclient (some other) p.number
      have hsecond := holders_put hnext (some other.remains) p.number
      rw [not_any_holds (remains_empty other), hdistinct] at hsecond
      rw [Option.any_some, hdistinct, Client.holds_of_process hprocess, decide_eq_true rfl,
        hcount] at hfirst
      rw [htaken]
      exact hsecond.trans (Nat.succ.inj hfirst)
    · rw [hlater, hlife, if_pos rfl]
      rfl
  refine ⟨⟨?_, ?_, rfl⟩, fun n hn => ?_, hlife, fun more => (hleft.after h more).life⟩
  · rw [htaken]
    exact (client?_put_other hij.symm _).trans (client?_put_self hclient other)
  · rw [htaken]
    exact client?_put_self hnext other.remains
  · rw [hlater, if_neg hn, List.append_nil]

-- Two workers are started, and the client of the first one takes over from that of the second one.
theorem overwriting_of_first_worker :
    let pool := after Rehearsal.workshop { ledger := { place := { next := { name := "w" } } } }
      [.start {} {} "w" "" {}, .start {} {} "w" "" {}]
    let taken := (overwrite Rehearsal.workshop 0 1 pool).state
    Rehearsal.workshop.Dependable ∧ taken.ledger.life 1 = pool.ledger.life 1 ∧
      ∀ more, (taken.after Rehearsal.workshop more).ledger.life 0 =
        [.built, .started, .discarded] := by
  intro pool taken
  obtain ⟨-, hothers, -, hend⟩ := overwriting_in_every_run Rehearsal.dependable
    { next := { name := "w" } } [.start {} {} "w" "" {}, .start {} {} "w" "" {}]
    (i := 0) (j := 1) (p := ⟨0, { part := { name := "w" }, started := true }⟩) rfl rfl rfl rfl
  exact ⟨Rehearsal.dependable, hothers 1 Nat.zero_ne_one, hend⟩

-- When both clients are destroyed then, the second worker is stopped. The first one never is.
theorem overwritten_without_stop :
    let pool := after Rehearsal.workshop { ledger := { place := { next := { name := "w" } } } }
      [.start {} {} "w" "" {}, .start {} {} "w" "" {}]
    let taken := (overwrite Rehearsal.workshop 0 1 pool).state
    let last := taken.after Rehearsal.workshop [.destroy 0, .destroy 1]
    pool.ledger.life 0 = [.built, .started] ∧
      .stopped ∉ taken.ledger.life 0 ∧ .discarded ∈ taken.ledger.life 0 ∧
      last.ledger.life 0 = [.built, .started, .discarded] ∧
      last.ledger.life 1 = [.built, .started, .stopped, .discarded] := by
  decide

end Pool

end Foreman

import Foreman.Proofs.Cache.Sequences
import Foreman.Proofs.Number.Integer

namespace Foreman.CacheConf

variable {host port service : Text}

theorem bne_colon_of_mem_reverse (h : (':' : UInt8) ∉ port) :
    ∀ c ∈ port.reverse, (c != (':' : UInt8)) = true := by
  intro c hc
  refine bne_iff_ne.mpr ?_
  rintro rfl
  exact h (List.mem_reverse.mp hc)

theorem splitService_append (host : Text) (h : (':' : UInt8) ∉ port) :
    splitService (host ++ (':' : UInt8) :: port) = some (host, port) := by
  have hport : (host ++ (':' : UInt8) :: port).reverse.takeWhile (fun c => c != (':' : UInt8)) =
      port.reverse := by
    rw [List.reverse_append, List.reverse_cons, List.append_assoc,
      List.takeWhile_append_of_pos (bne_colon_of_mem_reverse h), List.singleton_append,
      List.takeWhile_cons_of_neg (by decide), List.append_nil]
  have hlength : (host ++ (':' : UInt8) :: port).length = host.length + port.length + 1 := by
    rw [List.length_append, List.length_cons, Nat.add_assoc]
  unfold splitService
  rw [hport, List.reverse_reverse, hlength]
  dsimp only
  rw [if_neg (by omega), List.take_left' (by omega)]

theorem splitService_of_not_mem (h : (':' : UInt8) ∉ service) : splitService service = none := by
  have hall : service.reverse.takeWhile (fun c => c != (':' : UInt8)) = service.reverse :=
    List.takeWhile_eq_self_iff.mpr (bne_colon_of_mem_reverse h)
  unfold splitService
  rw [hall, List.reverse_reverse]
  exact if_pos rfl

theorem exists_last_colon (h : (':' : UInt8) ∈ service) :
    ∃ host port, service = host ++ (':' : UInt8) :: port ∧ (':' : UInt8) ∉ port := by
  obtain ⟨back, front, hsplit, hback⟩ := List.eq_append_cons_of_mem (List.mem_reverse.mpr h)
  refine ⟨front.reverse, back.reverse, ?_, mt List.mem_reverse.mp hback⟩
  rw [← List.reverse_reverse service, hsplit, List.reverse_append, List.reverse_cons,
    List.append_assoc, List.singleton_append]

-- A port is written in digits, with any number of zeros in front. Port 0 is none.
structure IsPort (port : Text) : Prop where
  given : port ≠ []
  digits : ∀ c ∈ port, Text.isDigit c
  positive : 1 ≤ Decimal.value port
  bounded : Decimal.value port ≤ 65535

theorem IsPort.colon_not_mem (h : IsPort port) : (':' : UInt8) ∉ port := by
  intro hcolon
  exact absurd (h.digits _ hcolon) (by decide)

-- What is read is what fits into 16 bits, and what is read as 0 is turned down after that.
theorem isPort_iff : IsPort port ↔ ∃ n, Integer.read .u16 port false = .ok n ∧ n ≠ 0 := by
  have hmin : IntType.u16.min = 0 := by decide
  have hmax : IntType.u16.max = 65535 := by decide
  constructor
  · rintro ⟨hgiven, hdigits, hpositive, hbounded⟩
    refine ⟨Decimal.value port, (Integer.read_unsigned_eq_ok_iff rfl).mpr
      ⟨hgiven, hdigits, rfl, ?_, ?_⟩, ?_⟩ <;> omega
  · rintro ⟨n, hread, hne⟩
    obtain ⟨hgiven, hdigits, rfl, hlow, hhigh⟩ := (Integer.read_unsigned_eq_ok_iff rfl).mp hread
    exact ⟨hgiven, hdigits, by omega, by omega⟩

theorem checkService_append (hhost : host ≠ []) (hport : (':' : UInt8) ∉ port) :
    checkService (host ++ (':' : UInt8) :: port) = .ok () ↔ IsPort port := by
  have hfilled : ¬(host ++ (':' : UInt8) :: port).isEmpty := by
    rw [List.isEmpty_iff]
    exact List.append_ne_nil_of_left_ne_nil hhost _
  rw [isPort_iff]
  unfold checkService
  dsimp only
  rw [if_neg hfilled, splitService_append host hport]
  dsimp only
  rw [if_neg (mt List.isEmpty_iff.mp hhost)]
  cases Integer.read .u16 port false with
  | error why => exact iff_of_false nofun (by rintro ⟨n, hread, -⟩; cases hread)
  | ok n =>
    by_cases hzero : n = 0
    · simp [hzero]
    · simp [hzero]

theorem host_of_checkService (hne : service ≠ []) (h : checkService service = .ok ()) :
    ∃ host port, service = host ++ (':' : UInt8) :: port ∧ host ≠ [] ∧ (':' : UInt8) ∉ port := by
  unfold checkService at h
  dsimp only at h
  rw [if_neg (mt List.isEmpty_iff.mp hne)] at h
  by_cases hcolon : (':' : UInt8) ∈ service
  · obtain ⟨host, port, rfl, hport⟩ := exists_last_colon hcolon
    refine ⟨host, port, rfl, ?_, hport⟩
    rintro rfl
    rw [splitService_append [] hport] at h
    cases h
  · rw [splitService_of_not_mem hcolon] at h
    cases h

theorem checkService_eq_ok_iff :
    checkService service = .ok () ↔ service = [] ∨
      ∃ host port, service = host ++ (':' : UInt8) :: port ∧ host ≠ [] ∧ IsPort port := by
  constructor
  · intro h
    by_cases hempty : service = []
    · exact .inl hempty
    · obtain ⟨host, port, rfl, hhost, hport⟩ := host_of_checkService hempty h
      exact .inr ⟨host, port, rfl, hhost, (checkService_append hhost hport).mp h⟩
  · rintro (rfl | ⟨host, port, rfl, hhost, hport⟩)
    · rfl
    · exact (checkService_append hhost hport.colon_not_mem).mpr hport

-- A service that is given alone is accepted exactly if it is empty, or a host, a colon and a port.
-- It is set in any case.
theorem service_of_accepted (push enabled : Bool) (old service : Text) :
    ((configure [("service", service)] ⟨push, enabled, .daemon old⟩).result = .ok () ↔
      service = [] ∨
        ∃ host port, service = host ++ (':' : UInt8) :: port ∧ host ≠ [] ∧ IsPort port) ∧
    (configure [("service", service)] ⟨push, enabled, .daemon old⟩).state =
      ⟨push, enabled, .daemon service⟩ := by
  have htakes : Takes ⟨push, enabled, .daemon old⟩ [("service", service)]
      ⟨push, enabled, .daemon service⟩ := .cons rfl (.nil _)
  obtain ⟨hresult, hstate⟩ := configure_of_takes htakes
  refine ⟨?_, hstate⟩
  rw [hresult, ← checkService_eq_ok_iff]
  change (checkService service).mapError Failure.plain = .ok () ↔ _
  cases checkService service with
  | error why => exact iff_of_false nofun nofun
  | ok => exact iff_of_true rfl rfl

-- The last colon is the one that counts, and zeros in front of a port do not.
example : (configure [("service", "::1:0080")] ⟨false, true, .daemon []⟩).result = .ok () := rfl

end Foreman.CacheConf

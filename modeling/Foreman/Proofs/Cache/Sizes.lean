import Foreman.Proofs.Cache.Filling
import Foreman.Proofs.Number.Size

namespace Foreman.CacheConf

variable {conf : CacheConf} {n : Nat}

def sizeEntry (n : Nat) : Text × Text :=
  ("size", Size.writeBytes n)

theorem configure_sizeEntry {own : DirSettings} (hconf : conf.settings = .dir own)
    (hread : Size.readBytes (Size.writeBytes n) = .ok n) :
    (configure [sizeEntry n] conf).state =
        { conf with settings := .dir { own with maxSize := n } } ∧
      (configure [sizeEntry n] conf).result = conf.check.mapError .plain := by
  have hentry : conf.entry "size" (Size.writeBytes n) =
      .applied { conf with settings := .dir { own with maxSize := n } } := by
    unfold entry dirEntry
    rw [hconf]
    dsimp only
    rw [if_neg (by decide), if_pos rfl, hread]
  have hall : applyAll [sizeEntry n] conf =
      ⟨.ok (), { conf with settings := .dir { own with maxSize := n } }, []⟩ := by
    change (applyEntry "size" (Size.writeBytes n) >>= fun _ => pure ()) conf = _
    rw [Act.bind_of_ok (applyEntry_of_applied hentry)]
    rfl
  obtain ⟨hstate, hresult⟩ := configure_apply [sizeEntry n] conf
  rw [hstate, hresult, hall]
  refine ⟨rfl, ?_⟩
  unfold check
  rw [hconf]
  rfl

theorem get_size_of_last {before after : List (Text × Text)} (hn : n < 2 ^ 64)
    (hafter : ∀ e ∈ after, e.1 ≠ "size")
    (h : (configure (before ++ sizeEntry n :: after) conf).result = .ok ()) :
    (configure (before ++ sizeEntry n :: after) conf).state.get .size = some (.bytes n) ↔
      Magnitude.Exact n := by
  obtain ⟨-, setting, hread, -⟩ : Field.size ∈ conf.fields ∧ _ :=
    accepted_of_key (accepted_of_configure h (sizeEntry n)
      (List.mem_append_right before List.mem_cons_self))
  have hget : (configure (before ++ sizeEntry n :: after) conf).state.get .size = some setting :=
    get_of_last hread hafter h
  rw [hget, ← Size.readBytes_writeBytes_eq_ok_iff hn]
  unfold Field.read at hread
  dsimp only at hread
  cases hbytes : Size.readBytes (Size.writeBytes n) with
  | error e =>
    rw [hbytes] at hread
    cases hread
  | ok m =>
    rw [hbytes] at hread
    cases hread
    rw [Option.some.injEq, Setting.bytes.injEq, Except.ok.injEq]

-- A size is read back, in all the types and units that it may be written in, if it is one that a
-- double holds, as are all sizes of at most 53 bits. Other sizes are read as another size or not at
-- all, and so is the least number of the widest signed type, which the check against underflow
-- takes to be too small. A cache in a directory has the size that it was last given if this is such
-- a size.
theorem sizes_read_back :
    (∀ (unit : SizeUnit), ∀ t ∈ Size.types, ∀ x, t.Fits x →
      (Size.read unit t false (Size.write unit x) = .ok x ↔
        Magnitude.Exact x.natAbs ∧ ¬(t = .i64 ∧ x = t.min)) ∧
      (x.natAbs ≤ 2 ^ 53 → Size.read unit t false (Size.write unit x) = .ok x)) ∧
    ∀ n < 2 ^ 64,
      (∀ (conf : CacheConf) (before after : List (Text × Text)), (∀ e ∈ after, e.1 ≠ "size") →
        (configure (before ++ sizeEntry n :: after) conf).result = .ok () →
        ((configure (before ++ sizeEntry n :: after) conf).state.get .size = some (.bytes n) ↔
          Magnitude.Exact n)) ∧
      ∀ (conf : CacheConf) (own : DirSettings), conf.settings = .dir own → Magnitude.Exact n →
        (configure [sizeEntry n] conf).state =
            { conf with settings := .dir { own with maxSize := n } } ∧
          (configure [sizeEntry n] conf).result = conf.check.mapError .plain := by
  refine ⟨fun unit t ht x hx => ⟨Size.read_write_eq_ok_iff unit ht hx, fun hsmall => ?small⟩,
    fun n hn => ⟨fun conf before after hafter hok => get_size_of_last hn hafter hok,
      fun conf own hconf h =>
        configure_sizeEntry hconf ((Size.readBytes_writeBytes_eq_ok_iff hn).mpr h)⟩⟩
  case small =>
    have hexact : Magnitude.Exact x.natAbs := by
      rcases hsmall.lt_or_eq with hlt | heq
      · exact Magnitude.exact_of_lt hlt
      · exact heq ▸ Magnitude.exact_pow 53
    have hmin : IntType.i64.min = -2 ^ 63 := by decide
    refine (Size.read_write_eq_ok_iff unit ht hx).mpr ⟨hexact, ?_⟩
    rintro ⟨rfl, rfl⟩
    omega

-- Three exbibytes for a directory, and a negative size in units of 1024.
theorem sizes_of_three_exbibytes :
    Size.read .kilo .i64 false (Size.write .kilo (-2 ^ 62)) = .ok (-2 ^ 62) ∧
      (configure ([] ++ sizeEntry (3 * 2 ^ 60) :: [("dir", "/c")])
        { settings := .dir {} }).state.get .size = some (.bytes (3 * 2 ^ 60)) ∧
      (configure [sizeEntry (3 * 2 ^ 60)] { settings := .dir {} }).result = .ok () := by
  have hexact : Magnitude.Exact (3 * 2 ^ 60) := ⟨3, 60, by decide, rfl⟩
  have hfits : IntType.i64.Fits (-2 ^ 62) := by decide
  have htype : IntType.i64 ∈ Size.types := by decide
  have haccepted : (configure ([] ++ sizeEntry (3 * 2 ^ 60) :: [("dir", "/c")])
      { settings := .dir {} }).result = .ok () := by decide +kernel
  obtain ⟨hread, hdir⟩ := sizes_read_back
  obtain ⟨hlast, halone⟩ := hdir (3 * 2 ^ 60) (by decide)
  exact ⟨(hread .kilo .i64 htype (-2 ^ 62) hfits).1.mpr ⟨Magnitude.exact_pow 62, by decide⟩,
    (hlast _ _ _ (by decide) haccepted).mpr hexact, (halone _ {} rfl hexact).2⟩

-- The first size with too many bits comes back as its neighbour, and the least number of 64 bits
-- does not come back.
theorem sizes_not_read_back :
    IntType.u64.Fits 9007199254740993 ∧
      Size.read .one .u64 false (Size.write .one 9007199254740993) = .ok 9007199254740992 ∧
      (configure [sizeEntry 9007199254740993] { settings := .dir {} }).state.get .size =
        some (.bytes 9007199254740992) ∧
      IntType.i64.Fits (-9223372036854775808) ∧
      Size.read .one .i64 false (Size.write .one (-9223372036854775808)) = .error .underflow :=
  ⟨by decide, by decide +kernel, by decide +kernel, by decide, by decide +kernel⟩

end Foreman.CacheConf

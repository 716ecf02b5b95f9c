import Foreman.Config.Session
import Foreman.Proofs.Cache.Passwords
import Foreman.Proofs.Trace.Lines

namespace Foreman

structure CacheRequest.Twin (a b : CacheRequest) : Prop where
  tag : a.tag = b.tag
  entries : List.Forall₂ EntryTwin a.entries b.entries

namespace Config

-- Configurations that are the same apart from the passwords of their caches, none of which is empty.
structure Twin (a b : Config) : Prop where
  localCache : Option.Rel CacheRequest.Twin a.localCache b.localCache
  remoteCache : Option.Rel CacheRequest.Twin a.remoteCache b.remoteCache
  properties : a.properties = b.properties
  worker : a.worker = b.worker
  level : a.level = b.level
  trace : a.trace = b.trace

variable {a b : Config} {tiers : Tiers}

theorem twin_fill (tier : CacheTier) {request request' : CacheRequest}
    (h : request.Twin request') :
    Act.Twin CacheConf.Twin (fun _ _ => True) (fill tier request) (fill tier request') := by
  refine .orElse (CacheConf.twin_configure h.entries) fun e => ?_
  cases e with
  | plain why => exact .fail _
  | ofKind kind message => exact .fail _

theorem twin_configureTier (tier : CacheTier) {request request' : Option CacheRequest}
    (h : Option.Rel CacheRequest.Twin request request') :
    Act.Twin Tiers.Twin (fun a b => a = b) (configureTier tier request)
      (configureTier tier request') := by
  cases h with
  | none => exact .pure rfl
  | some hrequest =>
    unfold configureTier
    dsimp only
    rw [hrequest.tag]
    exact .bind (Tiers.twin_configure tier _ (twin_fill tier hrequest)) fun _ _ _ => .pure rfl

def heading (config : Config) : List Text :=
  [CacheRequest.textOf config.localCache, CacheRequest.textOf config.remoteCache]

def body (config : Config) : Act Tiers Unit := do
  configureTier .local config.localCache
  configureTier .remote config.remoteCache

theorem twin_body (h : a.Twin b) :
    Act.Twin Tiers.Twin (fun a b => a = b) a.body b.body :=
  .bind (twin_configureTier .local h.localCache) fun _ _ _ =>
    twin_configureTier .remote h.remoteCache

theorem events_configure (config : Config) (tiers : Tiers) :
    (config.configure tiers).events =
      .opened .config "Config::configure" (some config.heading) ::
        ((config.body tiers).events ++ [.closed]) := rfl

def dump (config : Config) : Text :=
  CacheRequest.textOf config.localCache ++ " " ++ CacheRequest.textOf config.remoteCache

theorem heading_eq_iff :
    a.heading.flatMap (32 :: ·) = b.heading.flatMap (32 :: ·) ↔ a.dump = b.dump := by
  have hflat (config : Config) : config.heading.flatMap (32 :: ·) = 32 :: config.dump := by
    simp [heading, dump, List.flatMap_cons]
    rfl
  rw [hflat, hflat, List.cons.injEq, and_iff_right rfl]

def firstRecord (log : TraceLog) (config : Config) : Text :=
  log.opening .config "Config::configure" config.heading

theorem fit_firstRecord_eq_iff (log : TraceLog) :
    log.fit (firstRecord log a) = log.fit (firstRecord log b) ↔
      a.dump = b.dump ∨ log.TooLong (firstRecord log a) ∧ log.TooLong (firstRecord log b) := by
  have hrecord (config : Config) : firstRecord log config ≠ TraceLog.giantRecord :=
    TraceLog.record_ne_giantRecord _ _ _ _
  exact (TraceLog.fit_eq_iff (hrecord a) (hrecord b)).trans
    (or_congr_left (TraceLog.record_eq_iff.trans heading_eq_iff))

theorem lines_configure_eq_iff (h : a.Twin b) (tiers : Tiers) {session : Session}
    (hon : session.trace.on) (htraced : session.trace.channels.contains .config) :
    session.lines (a.configure tiers).events = session.lines (b.configure tiers).events ↔
      a.dump = b.dump ∨
        session.trace.TooLong (firstRecord session.trace a) ∧
          session.trace.TooLong (firstRecord session.trace b) := by
  have hbody := twin_body h tiers tiers (Tiers.Twin.refl tiers)
  rw [events_configure, events_configure, hbody.events, Session.lines_eq_iff hon htraced]
  exact fit_firstRecord_eq_iff session.trace

-- Configurations that are the same apart from passwords fail alike, and leave tiers that are the
-- same apart from passwords. After the first record of the trace they tell the same events. A
-- session that traces the channel writes the same lines for both exactly if the dumps in the first
-- record are the same text, passwords included, or both are too long to be written.
theorem disclosure (h : a.Twin b) (tiers : Tiers) (session : Session) (hon : session.trace.on)
    (htraced : session.trace.channels.contains .config) :
    (a.configure tiers).result = (b.configure tiers).result ∧
    (a.configure tiers).state.Twin (b.configure tiers).state ∧
    (∃ rest,
      (a.configure tiers).events = .opened .config "Config::configure" (some a.heading) :: rest ∧
      (b.configure tiers).events = .opened .config "Config::configure" (some b.heading) :: rest) ∧
    (session.lines (a.configure tiers).events = session.lines (b.configure tiers).events ↔
      a.dump = b.dump ∨
        session.trace.TooLong (firstRecord session.trace a) ∧
          session.trace.TooLong (firstRecord session.trace b)) := by
  have hbody := twin_body h tiers tiers (Tiers.Twin.refl tiers)
  refine ⟨hbody.result_eq, hbody.state, ⟨_, events_configure a tiers, ?_⟩,
    lines_configure_eq_iff h tiers hon htraced⟩
  rw [events_configure, hbody.events]

def withPassword (password : Text) : Config :=
  { remoteCache := some ⟨.http, [("url", "https://h"), ("user", "u"), ("password", password)]⟩ }

theorem twin_withPassword {p q : Text} (hp : p ≠ []) (hq : q ≠ []) :
    (withPassword p).Twin (withPassword q) :=
  ⟨.none, .some ⟨rfl, .cons (.same _) (.cons (.same _) (.cons (.password hp hq) .nil))⟩,
    rfl, rfl, rfl, rfl⟩

def tracing : Session :=
  ⟨default, true, { TraceLog.start ⟨0⟩ (fun _ => true) with
    on := true, file := "t", sizeLimit := TraceLog.leastSize }⟩

-- Two passwords that are too long to be written.
theorem disclosure_of_long_passwords :
    let a := withPassword (List.replicate 300 97)
    let b := withPassword (List.replicate 300 98)
    a.Twin b ∧ tracing.trace.on ∧ tracing.trace.channels.contains .config ∧
      ∀ tiers, (a.configure tiers).result = (b.configure tiers).result ∧
        tracing.lines (a.configure tiers).events = tracing.lines (b.configure tiers).events := by
  intro a b
  have htwin : a.Twin b := twin_withPassword (by decide) (by decide)
  have hlong : tracing.trace.TooLong (firstRecord tracing.trace a) ∧
      tracing.trace.TooLong (firstRecord tracing.trace b) := by
    unfold TraceLog.TooLong
    decide +kernel
  refine ⟨htwin, rfl, by decide, fun tiers => ?_⟩
  obtain ⟨hresult, -, -, hlines⟩ := disclosure htwin tiers tracing rfl (by decide)
  exact ⟨hresult, hlines.mpr (.inr hlong)⟩

-- Two passwords of one letter. Whatever the tiers hold, the trace tells them apart.
theorem passwords_told_apart :
    (withPassword "a").Twin (withPassword "b") ∧ tracing.trace.on ∧
      tracing.trace.channels = Flags.all ∧
      ∀ tiers, tracing.lines ((withPassword "a").configure tiers).events ≠
        tracing.lines ((withPassword "b").configure tiers).events := by
  have htwin : (withPassword "a").Twin (withPassword "b") :=
    twin_withPassword (by decide) (by decide)
  refine ⟨htwin, rfl, rfl, fun tiers hsame => ?_⟩
  rcases (lines_configure_eq_iff htwin tiers rfl (by decide)).mp hsame with hdump | hlong
  · exact absurd hdump (by decide +kernel)
  · have hshort : ¬tracing.trace.TooLong (firstRecord tracing.trace (withPassword "a")) := by
      unfold TraceLog.TooLong
      decide +kernel
    exact hshort hlong.1

end Config

end Foreman

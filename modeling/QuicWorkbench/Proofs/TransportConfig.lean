import QuicWorkbench.Config.Quinn
import QuicWorkbench.Lib.Except
import QuicWorkbench.Proofs.EcnCc
import QuicWorkbench.QuinnExtensions.NoCc

/-!
# Which QUIC configurations can be used

The numbers of a configuration are not checked before they are used: `transportConfig` panics, or goes on with a number that
has wrapped around, unless the configuration is `InRange` (`transportConfig_iff`). If it is, the numbers that are set are the
ones that were meant (`transportConfig_exact`). Without congestion control, a connection has the configured window from its
beginning to its end (`windowAfter_noCc`).
-/

namespace QuicWorkbench
open QuinnJsonConfig
open Except (bind_eq_ok mapM_eq_ok exists_mapM_eq_ok)

/-! ### The operations that can fail -/

theorem mulU64_eq_ok {a b c : UInt64} : mulU64 a b = .ok c ↔ a.toNat * b.toNat < 2 ^ 64 ∧ c.toNat = a.toNat * b.toNat := by
  unfold mulU64
  split_ifs with h
  · rw [Except.ok.injEq, ← UInt64.toNat_inj, UInt64.toNat_mul, Nat.mod_eq_of_lt h]
    omega
  · simp only [false_iff]
    exact fun hlt => h hlt.1

theorem subU32_eq_ok {a b c : UInt32} : subU32 a b = .ok c ↔ b.toNat ≤ a.toNat ∧ c.toNat = a.toNat - b.toNat := by
  unfold subU32
  split_ifs with h
  · rw [Except.ok.injEq, ← UInt32.toNat_inj, UInt32.toNat_sub_of_le a b h]
    have hle := UInt32.le_iff_toNat_le.1 h
    omega
  · have hle := UInt32.le_iff_toNat_le.not.1 h
    simp [hle]

theorem exists_subU32 {a b : UInt32} : (∃ c, subU32 a b = .ok c) ↔ b.toNat ≤ a.toNat := by
  simp only [subU32_eq_ok]
  constructor
  · rintro ⟨c, hle, -⟩
    exact hle
  · intro hle
    exact ⟨a - b, hle, UInt32.toNat_sub_of_le a b (UInt32.le_iff_toNat_le.2 hle)⟩

theorem tryFrom_eq_ok {n : Nat} {v : VarInt} : VarInt.tryFrom n = .ok v ↔ v.val = n := by
  unfold VarInt.tryFrom
  split_ifs with h
  · rw [Except.ok.injEq, Subtype.ext_iff]
    exact eq_comm
  · have hlt := v.property
    simp only [false_iff]
    omega

/-- The conversion to nanoseconds and back loses nothing. -/
theorem asMillis_fromMillis (ms : Nat) : Duration.asMillis (Duration.fromMillis ms) = ms := by
  simp only [Duration.asMillis, Duration.fromMillis]
  omega

/-! ### The parts of the configuration -/

/-- The numbers that can be used. -/
structure InRange (quinnConfig : QuinnJsonConfig) : Prop where
  window : ∀ packets ∈ quinnConfig.initialCongestionWindowPackets, packets.toNat ≤ 15372286728091293
  threshold : quinnConfig.ackFrequencyConfig ≠ none → quinnConfig.packetThreshold ≠ some 0
  timeout : ∀ timeout ∈ quinnConfig.maximumIdleTimeoutMs, timeout.toNat < 2 ^ 62

variable {quinnConfig : QuinnJsonConfig}

theorem exists_maxIdleTimeout : (∃ timeout, quinnConfig.maxIdleTimeout = .ok timeout) ↔
    ∀ timeout ∈ quinnConfig.maximumIdleTimeoutMs, timeout.toNat < 2 ^ 62 := by
  rw [maxIdleTimeout, exists_mapM_eq_ok]
  refine forall₂_congr fun timeout _ => ?_
  simp only [asMillis_fromMillis, tryFrom_eq_ok]
  exact ⟨fun ⟨v, hv⟩ => hv ▸ v.property, fun h => ⟨⟨timeout.toNat, h⟩, rfl⟩⟩

theorem exists_initialWindow : (∃ window, quinnConfig.initialWindow = .ok window) ↔
    ∀ packets ∈ quinnConfig.initialCongestionWindowPackets, packets.toNat ≤ 15372286728091293 := by
  rw [initialWindow, exists_mapM_eq_ok]
  refine forall₂_congr fun packets _ => ?_
  have hsize : baseDatagramSize.toNat = 1200 := rfl
  simp only [getCongestionWindowBytes, mulU64_eq_ok, hsize]
  constructor
  · rintro ⟨bytes, hlt, -⟩
    omega
  · intro hle
    have hlt : packets.toNat * 1200 < 2 ^ 64 := by omega
    exact ⟨.ofNat (packets.toNat * 1200), hlt, UInt64.toNat_ofNat_of_lt' hlt⟩

/-- Every controller takes the same window, or the largest if there is none. -/
theorem exists_ccFactory : (∃ factory, quinnConfig.ccFactory = .ok factory) ↔
    ∃ window, quinnConfig.initialWindow = .ok window := by
  unfold ccFactory
  cases quinnConfig.congestionController.getD .cubic <;> cases quinnConfig.initialWindow <;>
    simp [bind, Except.bind, pure, Except.pure]

theorem exists_ackFrequency : (∃ ackFrequency, quinnConfig.ackFrequency = .ok ackFrequency) ↔
    (quinnConfig.ackFrequencyConfig ≠ none → quinnConfig.packetThreshold ≠ some 0) := by
  have hthreshold : (∃ threshold, subU32 (quinnConfig.packetThreshold.getD 3) 1 = .ok threshold) ↔
      quinnConfig.packetThreshold ≠ some 0 := by
    rw [exists_subU32]
    cases quinnConfig.packetThreshold with
    | none => decide
    | some threshold =>
      have hone : (1 : UInt32).toNat = 1 := rfl
      have hzero : (0 : UInt32).toNat = 0 := rfl
      rw [Option.getD_some, Ne, Option.some.injEq, ← UInt32.toNat_inj]
      omega
  rw [← hthreshold, ackFrequency, exists_mapM_eq_ok, Option.ne_none_iff_exists']
  simp only [bind_eq_ok, pure, Except.pure, Except.ok.injEq]
  constructor
  · rintro h ⟨ackFrequency, hsome⟩
    obtain ⟨-, threshold, hthreshold, -⟩ := h ackFrequency hsome
    exact ⟨threshold, hthreshold⟩
  · intro h ackFrequency hsome
    obtain ⟨threshold, hthreshold⟩ := h ⟨ackFrequency, hsome⟩
    exact ⟨_, threshold, hthreshold, rfl⟩

/-! ### The configuration -/

theorem exists_transportConfig : (∃ config, transportConfig quinnConfig = .ok config) ↔
    (∃ timeout, quinnConfig.maxIdleTimeout = .ok timeout) ∧ (∃ factory, quinnConfig.ccFactory = .ok factory) ∧
      ∃ ackFrequency, quinnConfig.ackFrequency = .ok ackFrequency := by
  simp only [transportConfig, bind_eq_ok, pure, Except.pure, Except.ok.injEq]
  constructor
  · rintro ⟨config, timeout, htimeout, factory, hfactory, ackFrequency, hackFrequency, -⟩
    exact ⟨⟨timeout, htimeout⟩, ⟨factory, hfactory⟩, ackFrequency, hackFrequency⟩
  · rintro ⟨⟨timeout, htimeout⟩, ⟨factory, hfactory⟩, ackFrequency, hackFrequency⟩
    exact ⟨_, timeout, htimeout, factory, hfactory, ackFrequency, hackFrequency, rfl⟩

/-- The configuration is built, without an overflow, exactly if its numbers are in range. -/
theorem transportConfig_iff (quinnConfig : QuinnJsonConfig) :
    (∃ config, transportConfig quinnConfig = .ok config) ↔ InRange quinnConfig := by
  rw [exists_transportConfig, exists_maxIdleTimeout, exists_ccFactory, exists_initialWindow, exists_ackFrequency]
  exact ⟨fun ⟨timeout, window, threshold⟩ => ⟨window, threshold, timeout⟩, fun h => ⟨h.timeout, h.window, h.threshold⟩⟩

/-- A threshold of 0 with the extension enabled, a window of 2^64 − 1 packets, an idle timeout of 2^62 ms. -/
theorem transportConfig_outOfRange :
    transportConfig { packetThreshold := some 0, ackFrequencyConfig := some {} } = .error .subtractWithOverflow ∧
      transportConfig { initialCongestionWindowPackets := some (.ofNat u64Max) } = .error .multiplyWithOverflow ∧
      transportConfig { maximumIdleTimeoutMs := some (.ofNat (2 ^ 62)) } = .error .varIntBoundsExceeded := by
  decide +kernel

/-- The window that a controller starts with, if it is set. -/
def CcFactory.initialWindow : CcFactory → Option UInt64
  | .cubic window => window
  | .newReno window => window
  | .noCc window => some window
  | .ecnReno window => window

/-- What is set is what is meant: nothing has wrapped around. -/
structure Exact (quinnConfig : QuinnJsonConfig) (config : TransportConfig) : Prop where
  window : ∀ packets ∈ quinnConfig.initialCongestionWindowPackets,
    ∃ window ∈ config.congestionControllerFactory.initialWindow, window.toNat = packets.toNat * 1200
  threshold : ∀ ackFrequency ∈ config.ackFrequencyConfig,
    ackFrequency.reorderingThreshold.val + 1 = (quinnConfig.packetThreshold.getD 3).toNat
  timeout : config.maxIdleTimeout.map Subtype.val = quinnConfig.maximumIdleTimeoutMs.map UInt64.toNat

theorem maxIdleTimeout_exact {timeout : Option VarInt} (h : quinnConfig.maxIdleTimeout = .ok timeout) :
    timeout.map Subtype.val = quinnConfig.maximumIdleTimeoutMs.map UInt64.toNat := by
  obtain ⟨hsome, hnone⟩ := mapM_eq_ok.1 h
  cases hms : quinnConfig.maximumIdleTimeoutMs with
  | none => rw [hnone hms, Option.map_none, Option.map_none]
  | some ms =>
    obtain ⟨v, rfl, hv⟩ := hsome ms hms
    rw [asMillis_fromMillis, tryFrom_eq_ok] at hv
    rw [Option.map_some, Option.map_some, hv]

theorem ccFactory_exact {factory : CcFactory} (h : quinnConfig.ccFactory = .ok factory) :
    ∀ packets ∈ quinnConfig.initialCongestionWindowPackets,
      ∃ window ∈ factory.initialWindow, window.toNat = packets.toNat * 1200 := by
  intro packets hpackets
  have hwindow : ∃ window, quinnConfig.initialWindow = .ok window ∧ ∀ bytes ∈ window, bytes ∈ factory.initialWindow := by
    unfold ccFactory at h
    generalize quinnConfig.congestionController.getD .cubic = algorithm at h
    cases algorithm <;> obtain ⟨window, hwindow, hfactory⟩ := bind_eq_ok.1 h <;> obtain rfl := Except.ok.inj hfactory
    case noCc =>
      refine ⟨window, hwindow, fun bytes hbytes => ?_⟩
      rw [CcFactory.initialWindow, hbytes, Option.getD_some]
      rfl
    all_goals exact ⟨window, hwindow, fun bytes hbytes => hbytes⟩
  obtain ⟨window, hwindow, hfactory⟩ := hwindow
  obtain ⟨bytes, hbytes, hmul⟩ := (mapM_eq_ok.1 hwindow).1 packets hpackets
  exact ⟨bytes, hfactory bytes hbytes, (mulU64_eq_ok.1 hmul).2⟩

theorem ackFrequency_exact {ackFrequency : Option AckFrequencyConfig} (h : quinnConfig.ackFrequency = .ok ackFrequency) :
    ∀ a ∈ ackFrequency, a.reorderingThreshold.val + 1 = (quinnConfig.packetThreshold.getD 3).toNat := by
  intro a ha
  obtain ⟨hsome, hnone⟩ := mapM_eq_ok.1 h
  cases hjson : quinnConfig.ackFrequencyConfig with
  | none => simp [hnone hjson] at ha
  | some json =>
    obtain ⟨a', ha', hok⟩ := hsome json hjson
    obtain rfl := Option.mem_unique ha ha'
    obtain ⟨threshold, hthreshold, hpure⟩ := bind_eq_ok.1 hok
    obtain rfl := Except.ok.inj hpure
    obtain ⟨hle, hsub⟩ := subU32_eq_ok.1 hthreshold
    show threshold.toNat + 1 = _
    have hone : (1 : UInt32).toNat = 1 := rfl
    omega

theorem transportConfig_exact {config : TransportConfig} (h : transportConfig quinnConfig = .ok config) :
    Exact quinnConfig config := by
  simp only [transportConfig, bind_eq_ok] at h
  obtain ⟨timeout, htimeout, factory, hfactory, ackFrequency, hackFrequency, hconfig⟩ := h
  obtain rfl := Except.ok.inj hconfig
  exact ⟨ccFactory_exact hfactory, ackFrequency_exact hackFrequency, maxIdleTimeout_exact htimeout⟩

/-! ### Without congestion control -/

theorem NoCC.feed_eq {RttEstimator : Type} (c : NoCC) (calls : List (Callback RttEstimator)) : Controller.feed c calls = c := by
  induction calls with
  | nil => rfl
  | cons call calls ih =>
    have hcall : Controller.call c call = c := by cases call <;> rfl
    have hstep : Controller.feed c (call :: calls) = Controller.feed (Controller.call c call) calls := rfl
    rw [hstep, hcall, ih]

theorem ccFactory_noCc {factory : CcFactory} (h : quinnConfig.ccFactory = .ok factory)
    (hcc : quinnConfig.congestionController = some .noCc) : ∃ window, factory = .noCc window ∧
      window.toNat = (quinnConfig.initialCongestionWindowPackets.map (·.toNat * 1200)).getD u64Max := by
  have hexact := ccFactory_exact h
  unfold ccFactory at h
  rw [hcc] at h
  obtain ⟨window, hwindow, hfactory⟩ := bind_eq_ok.1 h
  obtain rfl := Except.ok.inj hfactory
  refine ⟨_, rfl, ?_⟩
  cases hpackets : quinnConfig.initialCongestionWindowPackets with
  | none =>
    rw [(mapM_eq_ok.1 hwindow).2 hpackets]
    rfl
  | some packets =>
    obtain ⟨bytes, hbytes, heq⟩ := hexact packets hpackets
    obtain rfl := Option.some.inj hbytes
    exact heq

/-- Whatever is sent, acknowledged, lost or marked, the window stays the configured one. -/
theorem windowAfter_noCc {RttEstimator Cubic NewReno : Type} [ControllerFactory RttEstimator Cubic]
    [ControllerFactory RttEstimator NewReno] (cubicConfig : Option UInt64 → Cubic) (newRenoConfig : Option UInt64 → NewReno)
    {config : TransportConfig} (h : transportConfig quinnConfig = .ok config)
    (hcc : quinnConfig.congestionController = some .noCc) (now : Nat) (currentMtu : UInt16)
    (calls : List (Callback RttEstimator)) :
    ((config.congestionControllerFactory.build cubicConfig newRenoConfig now currentMtu).windowAfter calls).toNat =
      (quinnConfig.initialCongestionWindowPackets.map (·.toNat * 1200)).getD u64Max := by
  simp only [transportConfig, bind_eq_ok] at h
  obtain ⟨timeout, -, factory, hfactory, ackFrequency, -, hconfig⟩ := h
  obtain rfl := Except.ok.inj hconfig
  obtain ⟨window, rfl, hwindow⟩ := ccFactory_noCc hfactory hcc
  rw [← hwindow]
  show (Controller.window RttEstimator (Controller.feed (NoCC.new ⟨window⟩ now currentMtu) calls)).toNat = window.toNat
  rw [NoCC.feed_eq]
  rfl

end QuicWorkbench

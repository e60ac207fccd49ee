import LiberaLink.Protocol.Records
import LiberaLink.Sink.Options

/-!
# The options of the Libera protocol host

What the host makes of its option map, and the bounds that hold whatever the map says.
-/

namespace LiberaLink.Protocol

/-- the ports that the libera library names for sessions and for discovery -/
structure DefaultPorts where
  session : UInt16
  discovery : UInt16

def makeHostOptions (ports : DefaultPorts) (config : VirtualControllerHostConfig) : HostOptions :=
  let minPointRate := max 1 (optionU32 config "min_point_rate" 1000)
  let listenAddress := optionString config "listen_address" "0.0.0.0"
  let advertisedAddress := optionString config "advertised_address" ""
  let broadcastAddresses := splitCsv (optionString config "broadcast_addresses" "")
  let discovery := optionString config "discovery" "true"
  { listenAddress := listenAddress
    advertisedAddress := if advertisedAddress = "" ∧ listenAddress ≠ "0.0.0.0" then listenAddress
      else advertisedAddress
    broadcastAddresses := if broadcastAddresses = [] then ["255.255.255.255"] else broadcastAddresses
    tcpPort := optionU16 config "tcp_port" ports.session.toNat
    discoveryPort := optionU16 config "discovery_port" ports.discovery.toNat
    broadcastIntervalMs := max 100 (optionU32 config "broadcast_interval_ms" 500)
    minPointRate := minPointRate
    maxPointRate := max minPointRate (optionU32 config "max_point_rate" 100000)
    maxFramePoints := max 1 (optionU32 config "max_frame_points" 300000)
    maxRecordPayloadBytes := max 1024 (optionU32 config "max_record_payload_bytes" (4 * 1024 * 1024))
    handshakeTimeoutMs := max 100 (optionU32 config "handshake_timeout_ms" 2000)
    sessionTimeoutMs := max 250 (optionU32 config "session_timeout_ms" 1500)
    maxUserChannels := min 2 (optionU32 config "max_user_channels" 2)
    discoveryEnabled := !(discovery = "0" || discovery = "false" || discovery = "off" ||
      discovery = "no") }

/-- what every option map leads to -/
structure HostOptions.Bounded (options : HostOptions) : Prop where
  minPointRate_pos : 1 ≤ options.minPointRate
  minPointRate_le : options.minPointRate ≤ options.maxPointRate
  maxPointRate_lt : options.maxPointRate < 2 ^ 32
  maxFramePoints_pos : 1 ≤ options.maxFramePoints
  maxUserChannels_le : options.maxUserChannels ≤ 2
  tcpPort_lt : options.tcpPort < 2 ^ 16

theorem makeHostOptions_bounded (ports : DefaultPorts) (config : VirtualControllerHostConfig) :
    (makeHostOptions ports config).Bounded where
  minPointRate_pos := Nat.le_max_left _ _
  minPointRate_le := Nat.le_max_left _ _
  maxPointRate_lt := by
    have hmin := optionU32_lt config "min_point_rate" (show 1000 < 2 ^ 32 by omega)
    have hmax := optionU32_lt config "max_point_rate" (show 100000 < 2 ^ 32 by omega)
    show max (max 1 _) _ < 2 ^ 32
    omega
  maxFramePoints_pos := Nat.le_max_left _ _
  maxUserChannels_le := Nat.min_le_left _ _
  tcpPort_lt := optionU16_lt config "tcp_port" ports.session.toNat_lt

end LiberaLink.Protocol

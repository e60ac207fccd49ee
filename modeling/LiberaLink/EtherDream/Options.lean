import LiberaLink.Sink.Options

/-!
# The options of the Ether Dream host

What the host makes of its option map, and the bounds that hold whatever the map says.
-/

namespace LiberaLink.EtherDream

/-- the ports that the libera library names for Ether Dream controllers -/
structure DefaultPorts where
  tcp : UInt16
  discovery : UInt16

structure HostOptions where
  explicitAddresses : List String
  ipMode : String
  interfaceName : String
  baseAddress : String
  netmask : String
  broadcastAddresses : List String
  autoManageAliases : Bool
  allowPrivilegePrompt : Bool
  discoveryEnabled : Bool
  tcpPort : Nat
  discoveryPort : Nat
  bufferCapacity : Nat
  maxPointRate : Nat
  broadcastIntervalMs : Nat
  playbackSliceUs : Nat

def makeHostOptions (ports : DefaultPorts) (config : VirtualControllerHostConfig) : HostOptions :=
  let broadcastAddresses := splitCsv (optionString config "broadcast_addresses" "")
  -- the bounds on the configured slice duration do not apply to the option below
  let playbackSliceUs :=
    max 1000 (if 0 < config.sliceDurationUs then min config.sliceDurationUs 15000 else 5000)
  { explicitAddresses := splitCsv (optionString config "addresses" "")
    ipMode := optionString config "ip_mode" "auto"
    interfaceName := optionString config "interface" ""
    baseAddress := optionString config "base_address" ""
    netmask := optionString config "netmask" ""
    broadcastAddresses := if broadcastAddresses = [] then ["255.255.255.255"] else broadcastAddresses
    autoManageAliases := optionBool config "auto_manage_aliases" true
    allowPrivilegePrompt := optionBool config "allow_privilege_prompt" true
    discoveryEnabled := optionBool config "discovery" true
    tcpPort := optionU16 config "tcp_port" ports.tcp.toNat
    discoveryPort := optionU16 config "discovery_port" ports.discovery.toNat
    bufferCapacity := max 1 (optionU16 config "buffer_capacity" 3899)
    maxPointRate := max 1000 (optionU32 config "max_point_rate" 100000)
    broadcastIntervalMs := max 20 (optionU32 config "broadcast_interval_ms" 1000)
    playbackSliceUs := optionU32 config "playback_slice_us" playbackSliceUs }

/-- what every option map leads to -/
structure HostOptions.Bounded (options : HostOptions) : Prop where
  bufferCapacity_pos : 1 ≤ options.bufferCapacity
  bufferCapacity_lt : options.bufferCapacity < 2 ^ 16
  maxPointRate_ge : 1000 ≤ options.maxPointRate
  maxPointRate_lt : options.maxPointRate < 2 ^ 32
  broadcastIntervalMs_ge : 20 ≤ options.broadcastIntervalMs

theorem makeHostOptions_bounded (ports : DefaultPorts) (config : VirtualControllerHostConfig) :
    (makeHostOptions ports config).Bounded where
  bufferCapacity_pos := Nat.le_max_left _ _
  bufferCapacity_lt := by
    have h := optionU16_lt config "buffer_capacity" (show 3899 < 2 ^ 16 by omega)
    show max 1 _ < 2 ^ 16
    omega
  maxPointRate_ge := Nat.le_max_left _ _
  maxPointRate_lt := by
    have h := optionU32_lt config "max_point_rate" (show 100000 < 2 ^ 32 by omega)
    show max 1000 _ < 2 ^ 32
    omega
  broadcastIntervalMs_ge := Nat.le_max_left _ _

end LiberaLink.EtherDream

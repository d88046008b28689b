/-
# Messages between the service and its clients (`IncomingMessageHandler`, twice)

Service and clients talk through messengers.  A message is an integer `what`, a messenger to
answer to, and a bundle.  Both handlers take `what` for the index of a constant of an enumeration
and look it up with `values()[what]`; the service's then answers to `replyTo`, the client's builds
a record from the bundle.

None of this is checked for all messages.

* The service's handler looks `what` up without a test, before it looks whether there is still a
  manager.  The client's tests `what > values().length`, so that the length itself and the
  negative numbers pass.
* Four of the service's cases call a method on `replyTo`, which may be `null`.
* The record the client builds has three fields that may not be `null`, and two whose class is
  taken on trust (`getTunnelStateFromBundle_cases`, `buildConnectionData_cases`).

`ServiceTakes` and `ClientTakes` say which messages are handled without an exception, and
`ipc_total_iff` that they do so in every state of the two sides; a `what` that names no constant
changes nothing.

A bundle is a function from keys to the values it has: parcels that cannot be unmarshalled are not
modelled, and neither is what the effects of a message, such as a payload that is imported, do in
the tunnel library.
-/
import ShiroKhorshid.Apps.Builder
import ShiroKhorshid.Service.Connection
import ShiroKhorshid.Traffic.Series

namespace ShiroKhorshid.Service

open Jvm Apps Traffic

/-! ## 1. Messages -/

/-- `ClientToServiceMessage` -/
inductive ClientToServiceMessage
  | REGISTER | UNREGISTER | STOP_SERVICE | RESTART_TUNNEL | CHANGED_LOCALE
  | NFC_CONNECTION_INFO_EXCHANGE_IMPORT | NFC_CONNECTION_INFO_EXCHANGE_EXPORT
deriving DecidableEq

/-- `ServiceToClientMessage` -/
inductive ServiceToClientMessage
  | TUNNEL_CONNECTION_STATE | DATA_TRANSFER_STATS | PING | NFC_CONNECTION_INFO_EXCHANGE_EXPORT
deriving DecidableEq

/-- `ClientToServiceMessage.values()` -/
def csm : List ClientToServiceMessage :=
  [.REGISTER, .UNREGISTER, .STOP_SERVICE, .RESTART_TUNNEL, .CHANGED_LOCALE,
    .NFC_CONNECTION_INFO_EXCHANGE_IMPORT, .NFC_CONNECTION_INFO_EXCHANGE_EXPORT]

/-- `ServiceToClientMessage.values()` -/
def scm : List ServiceToClientMessage :=
  [.TUNNEL_CONNECTION_STATE, .DATA_TRANSFER_STATS, .PING, .NFC_CONNECTION_INFO_EXCHANGE_EXPORT]

/-- What a bundle can hold under a key. -/
inductive BundleValue
  | boolean (b : Bool)
  | int (n : ℤ)
  | long (n : ℤ)
  | string (s : String)
  | stringArrayList (list : List String)
  | bucketArrayList (list : List Bucket)
  | networkConnectionState (c : NetworkState)
  | vpnAppsExclusionSetting (mode : VpnAppsExclusionSetting)
  /-- an object of any other class that is `Serializable` -/
  | serializable
  /-- an object that is not `Serializable` -/
  | parcelable
deriving DecidableEq

/-- `android.os.Bundle`.  A key that is absent reads like one that holds `null`, and every getter
answers a value of another type with its default. -/
abbrev Bundle := String → Option BundleValue

namespace Bundle

def getBoolean (data : Bundle) (key : String) : Bool :=
  match data key with
  | some (.boolean b) => b
  | _ => false

def getInt (data : Bundle) (key : String) : ℤ :=
  match data key with
  | some (.int n) => n
  | _ => 0

def getLong (data : Bundle) (key : String) : ℤ :=
  match data key with
  | some (.long n) => n
  | _ => 0

def getString (data : Bundle) (key : String) : Option String :=
  match data key with
  | some (.string s) => some s
  | _ => none

def getStringArrayList (data : Bundle) (key : String) : Option (List String) :=
  match data key with
  | some (.stringArrayList list) => some list
  | _ => none

def getParcelableArrayList (data : Bundle) (key : String) : Option (List Bucket) :=
  match data key with
  | some (.bucketArrayList list) => some list
  | _ => none

/-- Everything but a `parcelable` is `Serializable`. -/
def getSerializable (data : Bundle) (key : String) : Option BundleValue :=
  (data key).filter fun v => v ≠ .parcelable

end Bundle

/-- The cast of what `getSerializable` returned. -/
def castNetworkConnectionState : Option BundleValue → Except Thrown (Option NetworkState)
  | none => .ok none
  | some (.networkConnectionState c) => .ok (some c)
  | some _ => .error .classCast

def castVpnAppsExclusionSetting :
    Option BundleValue → Except Thrown (Option VpnAppsExclusionSetting)
  | none => .ok none
  | some (.vpnAppsExclusionSetting mode) => .ok (some mode)
  | some _ => .error .classCast

/-- `android.os.Message`; `data` is `none` when no bundle was set. -/
structure Message (Messenger : Type*) where
  what : ℤ
  replyTo : Option Messenger
  data : Option Bundle

/-- `getData()`, never `null`. -/
def Message.getData {Messenger : Type*} (msg : Message Messenger) : Bundle :=
  msg.data.getD fun _ => none

/-- How a handler ends: the state it leaves, and the exception that ends it, if one does. -/
structure Ended (σ : Type*) where
  state : σ
  thrown : Option Thrown

/-- `TunnelManager.State`, on both sides. -/
structure TunnelManager.State where
  isRunning : Bool
  networkConnectionState : Option NetworkState
  listeningLocalSocksProxyPort : ℤ
  listeningLocalHttpProxyPort : ℤ
  clientRegion : Option String
  sponsorId : Option String
  homePages : List String
  vpnMode : VpnAppsExclusionSetting
  vpnApps : List String
  shareProxyOnNetwork : Bool
deriving DecidableEq

/-- `new TunnelManager.State()` -/
def TunnelManager.State.new : TunnelManager.State :=
  ⟨false, some .connecting, 0, 0, some "", some "", [], .ALL_APPS, [], false⟩

/-- `isConnected` -/
def TunnelManager.State.isConnected (state : TunnelManager.State) : Bool :=
  state.networkConnectionState = some .connected

/-! ## 2. The service's handler -/

section ServiceSide

variable {Messenger : Type*}

/-- `MessengerWrapper` -/
structure MessengerWrapper (Messenger : Type*) where
  messenger : Messenger
  isActivity : Bool

/-- `new MessengerWrapper(messenger, data)` -/
def MessengerWrapper.new (messenger : Messenger) (data : Bundle) : MessengerWrapper Messenger :=
  ⟨messenger, data.getBoolean "com.psiphon3.psiphonlibrary.TunnelManager.IS_CLIENT_AN_ACTIVITY"⟩

/-- What the handler sets off elsewhere. -/
inductive Effect (Messenger : Type*)
  | sent (client : Messenger) (what : ServiceToClientMessage) (data : Bundle)
  /-- `m_newClientPublishRelay.accept` -/
  | newClient
  | signalStopService
  /-- a subscription to `getTunnelConfigSingle` that will call `onRestartTunnel` -/
  | restartTunnel
  | setLocale
  | importExchangePayload (payload : Option String)

/-- The fields of `TunnelManager` that the handler works on, and what it has set off so far. -/
structure Registry (Messenger : Type*) where
  mClients : ℤ → Option (MessengerWrapper Messenger)
  m_tunnelState : TunnelManager.State
  effects : List (Effect Messenger)

/-- What a call meets: the messengers' hash codes, whether a message reaches its client (else
`send` ends in a `RemoteException`), the configuration's sponsor, and what the statistics and the
tunnel library give. -/
structure ServiceEnv (Messenger : Type*) where
  hashCode : Messenger → ℤ
  delivers : Messenger → ServiceToClientMessage → Bool
  /-- `m_tunnelConfig.sponsorId`, if there is a configuration -/
  sponsorId : Option String
  getDataTransferStatsBundle : Bundle
  exportExchangePayload : Option String

/-- The bundle of `getTunnelStateBundle`. -/
def TunnelManager.State.bundle (state : TunnelManager.State) : Bundle
  | "isRunning" => some (.boolean state.isRunning)
  | "listeningLocalSocksProxyPort" => some (.int state.listeningLocalSocksProxyPort)
  | "listeningLocalHttpProxyPort" => some (.int state.listeningLocalHttpProxyPort)
  | "networkConnectionState" => state.networkConnectionState.map .networkConnectionState
  | "clientRegion" => state.clientRegion.map .string
  | "sponsorId" => state.sponsorId.map .string
  | "homePages" => some (.stringArrayList state.homePages)
  | "vpnMode" => some (.vpnAppsExclusionSetting state.vpnMode)
  | "vpnApps" => some (.stringArrayList state.vpnApps)
  | "shareProxyOnNetwork" => some (.boolean state.shareProxyOnNetwork)
  | _ => none

namespace Registry

variable (env : ServiceEnv Messenger) (manager : Registry Messenger)

/-- `getTunnelStateBundle`, which brings the sponsor up to date first. -/
def updateSponsorId : Registry Messenger :=
  { manager with m_tunnelState.sponsorId := some (env.sponsorId.getD "") }

/-- `client.send(message)`; the second component says whether it returned. -/
def send (client : Messenger) (what : ServiceToClientMessage) (data : Bundle) :
    Registry Messenger × Bool :=
  if env.delivers client what then
    ({ manager with effects := manager.effects ++ [.sent client what data] }, true)
  else (manager, false)

def accept (effect : Effect Messenger) : Registry Messenger :=
  { manager with effects := manager.effects ++ [effect] }

/-- The case REGISTER: a client that cannot be answered at once is not added. -/
def register (replyTo : Messenger) (data : Bundle) : Registry Messenger :=
  let client := MessengerWrapper.new replyTo data
  let manager := manager.updateSponsorId env
  let (manager, sent) :=
    manager.send env replyTo .TUNNEL_CONNECTION_STATE manager.m_tunnelState.bundle
  if sent then
    let (manager, sent) :=
      manager.send env replyTo .DATA_TRANSFER_STATS env.getDataTransferStatsBundle
    if sent then
      { manager with
        mClients := Function.update manager.mClients (env.hashCode replyTo) (some client)
      }.accept .newClient
    else manager
  else manager

/-- The case UNREGISTER. -/
def unregister (replyTo : Messenger) : Registry Messenger :=
  { manager with mClients := Function.update manager.mClients (env.hashCode replyTo) none }

/-- The case STOP_SERVICE. -/
def stopService : Registry Messenger :=
  { manager with mClients := fun _ => none }.accept .signalStopService

/-- The cases RESTART_TUNNEL and CHANGED_LOCALE, for registered senders only. -/
def ifRegistered (replyTo : Messenger) (effect : Effect Messenger) : Registry Messenger :=
  match manager.mClients (env.hashCode replyTo) with
  | none => manager
  | some _ => manager.accept effect

/-- The bundle of an exchange payload. -/
def payloadBundle (payload : Option String) : Bundle
  | "dataNfcConnectionInfoExchange" => payload.map .string
  | _ => none

/-- The case NFC_CONNECTION_INFO_EXCHANGE_EXPORT. -/
def exportPayload (replyTo : Messenger) : Registry Messenger :=
  match manager.mClients (env.hashCode replyTo) with
  | none => manager
  | some client =>
    (manager.send env client.messenger .NFC_CONNECTION_INFO_EXCHANGE_EXPORT
      (payloadBundle env.exportExchangePayload)).1

/-- A case that begins with `msg.replyTo.hashCode()`. -/
def withReplyTo (msg : Message Messenger) (f : Messenger → Registry Messenger) :
    Ended (Registry Messenger) :=
  match msg.replyTo with
  | none => ⟨manager, some .nullPointer⟩
  | some replyTo => ⟨f replyTo, none⟩

/-- The cases of the `switch`, with a manager there. -/
def handle (msg : Message Messenger) : ClientToServiceMessage → Ended (Registry Messenger)
  | .REGISTER =>
    match msg.replyTo with
    | none => ⟨manager, none⟩
    | some replyTo => ⟨manager.register env replyTo msg.getData, none⟩
  | .UNREGISTER => manager.withReplyTo msg fun replyTo => manager.unregister env replyTo
  | .STOP_SERVICE => ⟨manager.stopService, none⟩
  | .RESTART_TUNNEL =>
    manager.withReplyTo msg fun replyTo => manager.ifRegistered env replyTo .restartTunnel
  | .CHANGED_LOCALE =>
    manager.withReplyTo msg fun replyTo => manager.ifRegistered env replyTo .setLocale
  | .NFC_CONNECTION_INFO_EXCHANGE_EXPORT =>
    manager.withReplyTo msg fun replyTo => manager.exportPayload env replyTo
  | .NFC_CONNECTION_INFO_EXCHANGE_IMPORT =>
    ⟨manager.accept (.importExchangePayload
      (msg.getData.getString "dataNfcConnectionInfoExchange")), none⟩

end Registry

/-- `TunnelManager.IncomingMessageHandler.handleMessage`.  The manager is behind a weak reference;
the constant is looked up whether it is still there or not. -/
def handleServiceMessage (env : ServiceEnv Messenger) (manager : Option (Registry Messenger))
    (msg : Message Messenger) : Ended (Option (Registry Messenger)) :=
  match elementAt csm msg.what with
  | .error e => ⟨manager, some e⟩
  | .ok what =>
    match manager with
    | none => ⟨none, none⟩
    | some manager =>
      let ended := manager.handle env msg what
      ⟨some ended.state, ended.thrown⟩

end ServiceSide

/-! ## 3. The client's handler -/

/-- `TunnelState.ConnectionData` -/
structure ConnectionData where
  networkConnectionState : NetworkState
  clientRegion : String
  clientVersion : String
  propagationChannelId : String
  sponsorId : String
  httpPort : ℤ
  socksPort : ℤ
  isLanSharingEnabled : Bool
  homePages : Option (List String)
  vpnMode : VpnAppsExclusionSetting
  vpnApps : Option (List String)
deriving DecidableEq

/-- `TunnelState` -/
inductive TunnelState
  | unknown
  | stopped
  | running (connectionData : ConnectionData)
deriving DecidableEq

/-- `EmbeddedValues.CLIENT_VERSION`, `EmbeddedValues.PROPAGATION_CHANNEL_ID`, and the clock. -/
structure ClientEnv where
  clientVersion : String
  propagationChannelId : String
  currentTimeMillis : ℤ

/-- `DataTransferStatsForUI`, with the two speeds of `TunnelServiceInteractor`. -/
structure DataTransferStatsForUI where
  m_connectedTime : ℤ
  m_totalBytesSent : ℤ
  m_totalBytesReceived : ℤ
  m_slowBuckets : Option (List Bucket)
  m_slowBucketsLastStartTime : ℤ
  m_fastBuckets : Option (List Bucket)
  m_fastBucketsLastStartTime : ℤ
  lastDownloadSpeedBytes : ℤ
  lastUploadSpeedBytes : ℤ
deriving DecidableEq

/-- `TunnelServiceInteractor` and its handler: the last value of each relay, the statistics, the
handler's copy of the service's state, and what the export listener has been told, if there is a
listener. -/
structure TunnelServiceInteractor where
  tunnelStateRelay : TunnelState
  dataStatsRelay : Option ℤ
  uiStats : DataTransferStatsForUI
  state : Option TunnelManager.State
  nfcExportListener : Option (List (Option String))
deriving DecidableEq

/-- `getTunnelStateFromBundle` -/
def getTunnelStateFromBundle (data : Bundle) : Except Thrown TunnelManager.State := do
  let networkConnectionState ←
    castNetworkConnectionState (data.getSerializable "networkConnectionState")
  let vpnMode ← castVpnAppsExclusionSetting (data.getSerializable "vpnMode")
  let tunnelState : TunnelManager.State :=
    { TunnelManager.State.new with
      isRunning := data.getBoolean "isRunning"
      networkConnectionState := networkConnectionState
      listeningLocalSocksProxyPort := data.getInt "listeningLocalSocksProxyPort"
      listeningLocalHttpProxyPort := data.getInt "listeningLocalHttpProxyPort"
      clientRegion := data.getString "clientRegion"
      sponsorId := data.getString "sponsorId"
      vpnMode := vpnMode.getD .ALL_APPS
      vpnApps := (data.getStringArrayList "vpnApps").getD []
      shareProxyOnNetwork := data.getBoolean "shareProxyOnNetwork" }
  return { tunnelState with
    homePages := if tunnelState.isConnected then (data.getStringArrayList "homePages").getD []
      else [] }

/-- The `ConnectionData` builder, whose setters take no `null` but for the two lists. -/
def buildConnectionData (env : ClientEnv) (state : TunnelManager.State) :
    Except Thrown ConnectionData :=
  match state.networkConnectionState, state.clientRegion, state.sponsorId with
  | some networkConnectionState, some clientRegion, some sponsorId =>
    .ok {
      networkConnectionState := networkConnectionState
      clientRegion := clientRegion
      clientVersion := env.clientVersion
      propagationChannelId := env.propagationChannelId
      sponsorId := sponsorId
      httpPort := state.listeningLocalHttpProxyPort
      socksPort := state.listeningLocalSocksProxyPort
      isLanSharingEnabled := state.shareProxyOnNetwork
      homePages := some state.homePages
      vpnMode := state.vpnMode
      vpnApps := some state.vpnApps }
  | _, _, _ => .error .nullPointer

/-- `getDataTransferStatsFromBundle` -/
def getDataTransferStatsFromBundle (data : Bundle) : DataTransferStatsForUI where
  m_connectedTime := data.getLong "dataTransferStatsConnectedTime"
  m_totalBytesSent := data.getLong "dataTransferStatsTotalBytesSent"
  m_totalBytesReceived := data.getLong "dataTransferStatsTotalBytesReceived"
  m_slowBuckets := data.getParcelableArrayList "dataTransferStatsSlowBuckets"
  m_slowBucketsLastStartTime := data.getLong "dataTransferStatsSlowBucketsLastStartTime"
  m_fastBuckets := data.getParcelableArrayList "dataTransferStatsFastBuckets"
  m_fastBucketsLastStartTime := data.getLong "dataTransferStatsFastBucketsLastStartTime"
  lastDownloadSpeedBytes := data.getLong "dataTransferStatsCurrentDownloadSpeed"
  lastUploadSpeedBytes := data.getLong "dataTransferStatsCurrentUploadSpeed"

namespace TunnelServiceInteractor

variable (env : ClientEnv) (interactor : TunnelServiceInteractor)

/-- The case TUNNEL_CONNECTION_STATE.  The handler's copy is renewed before the record is built. -/
def tunnelConnectionState (data : Bundle) : Ended TunnelServiceInteractor :=
  match getTunnelStateFromBundle data with
  | .error e => ⟨interactor, some e⟩
  | .ok state =>
    let interactor := { interactor with state := some state }
    if state.isRunning then
      match buildConnectionData env state with
      | .error e => ⟨interactor, some e⟩
      | .ok connectionData =>
        ⟨{ interactor with tunnelStateRelay := .running connectionData }, none⟩
    else ⟨{ interactor with tunnelStateRelay := .stopped }, none⟩

/-- The cases of the `switch`. -/
def handle (data : Bundle) : ServiceToClientMessage → Ended TunnelServiceInteractor
  | .TUNNEL_CONNECTION_STATE => interactor.tunnelConnectionState env data
  | .DATA_TRANSFER_STATS =>
    ⟨{ interactor with
      uiStats := getDataTransferStatsFromBundle data
      dataStatsRelay := some env.currentTimeMillis }, none⟩
  | .NFC_CONNECTION_INFO_EXCHANGE_EXPORT =>
    ⟨{ interactor with
      nfcExportListener := interactor.nfcExportListener.map
        (· ++ [data.getString "dataNfcConnectionInfoExchange"]) }, none⟩
  | .PING => ⟨interactor, none⟩

end TunnelServiceInteractor

/-- `TunnelServiceInteractor.IncomingMessageHandler.handleMessage`; the interactor is behind a
weak reference. -/
def handleClientMessage {Messenger : Type*} (env : ClientEnv)
    (interactor : Option TunnelServiceInteractor) (msg : Message Messenger) :
    Ended (Option TunnelServiceInteractor) :=
  match interactor with
  | none => ⟨none, none⟩
  | some interactor =>
    if msg.what > scm.length then ⟨some interactor, none⟩
    else match elementAt scm msg.what with
      | .error e => ⟨some interactor, some e⟩
      | .ok what =>
        let ended := interactor.handle env msg.getData what
        ⟨some ended.state, ended.thrown⟩

/-! ## 4. Which messages are handled -/

theorem csm_nodup : csm.Nodup := by decide

theorem mem_csm (what : ClientToServiceMessage) : what ∈ csm := by cases what <;> decide

theorem scm_nodup : scm.Nodup := by decide

theorem mem_scm (what : ServiceToClientMessage) : what ∈ scm := by cases what <;> decide

/-- The cases that do without a messenger to answer to. -/
def ClientToServiceMessage.needsReplyTo : ClientToServiceMessage → Bool
  | .REGISTER | .STOP_SERVICE | .NFC_CONNECTION_INFO_EXCHANGE_IMPORT => false
  | _ => true

/-- A message the service takes: `what` names a constant, and while the manager is there `replyTo`
is set where the constant needs it. -/
def ServiceTakes {Messenger : Type*} (managerAlive : Bool) (msg : Message Messenger) : Prop :=
  ∃ what, msg.what = ordinal csm what ∧
    (managerAlive = true → what.needsReplyTo = true → msg.replyTo ≠ none)

/-- A key that holds nothing, nothing serializable, or what the cast asks for. -/
def HoldsAtMost (data : Bundle) (key : String) (asked : BundleValue → Prop) : Prop :=
  ∀ v, data key = some v → v = .parcelable ∨ asked v

/-- A bundle the connection state can be read from. -/
structure StateBundle (data : Bundle) : Prop where
  network : HoldsAtMost data "networkConnectionState" fun v => ∃ c, v = .networkConnectionState c
  mode : HoldsAtMost data "vpnMode" fun v => ∃ mode, v = .vpnAppsExclusionSetting mode
  /-- what may not be `null` in the record of a running tunnel -/
  running : data "isRunning" = some (.boolean true) →
    (∃ c, data "networkConnectionState" = some (.networkConnectionState c)) ∧
    (∃ s, data "clientRegion" = some (.string s)) ∧ ∃ s, data "sponsorId" = some (.string s)

/-- A message a client takes: `what` is not negative and not the number of constants, and a
connection state can be read.  A client that is gone takes every message. -/
def ClientTakes {Messenger : Type*} (interactorAlive : Bool) (msg : Message Messenger) : Prop :=
  interactorAlive = true →
    0 ≤ msg.what ∧ msg.what ≠ 4 ∧ (msg.what = 0 → StateBundle msg.getData)

section ServiceSide

variable {Messenger : Type*} (env : ServiceEnv Messenger)

theorem Registry.withReplyTo_thrown_iff (manager : Registry Messenger) (msg : Message Messenger)
    (f : Messenger → Registry Messenger) :
    (manager.withReplyTo msg f).thrown = none ↔ msg.replyTo ≠ none := by
  unfold withReplyTo
  cases msg.replyTo with
  | none => simp
  | some replyTo => simp

/-- **One case of the service's `switch`.** -/
theorem Registry.handle_thrown_iff (manager : Registry Messenger) (msg : Message Messenger)
    (what : ClientToServiceMessage) :
    (manager.handle env msg what).thrown = none ↔
      (what.needsReplyTo = true → msg.replyTo ≠ none) := by
  cases what with
  | REGISTER =>
    refine iff_of_true ?_ fun h => absurd h (by decide)
    rw [Registry.handle]
    split <;> rfl
  | STOP_SERVICE => exact iff_of_true rfl fun h => absurd h (by decide)
  | NFC_CONNECTION_INFO_EXCHANGE_IMPORT => exact iff_of_true rfl fun h => absurd h (by decide)
  | UNREGISTER => exact (withReplyTo_thrown_iff _ _ _).trans ⟨fun h _ => h, fun h => h rfl⟩
  | RESTART_TUNNEL => exact (withReplyTo_thrown_iff _ _ _).trans ⟨fun h _ => h, fun h => h rfl⟩
  | CHANGED_LOCALE => exact (withReplyTo_thrown_iff _ _ _).trans ⟨fun h _ => h, fun h => h rfl⟩
  | NFC_CONNECTION_INFO_EXCHANGE_EXPORT =>
    exact (withReplyTo_thrown_iff _ _ _).trans ⟨fun h _ => h, fun h => h rfl⟩

/-- **The service.** -/
theorem handleServiceMessage_thrown_iff (manager : Option (Registry Messenger))
    (msg : Message Messenger) :
    (handleServiceMessage env manager msg).thrown = none ↔ ServiceTakes manager.isSome msg := by
  unfold handleServiceMessage ServiceTakes
  rcases elementAt_cases csm_nodup mem_csm msg.what with ⟨what, hwhat, hok⟩ | ⟨hno, herror⟩
  · rw [hok, hwhat]
    have honly : ∀ what', ordinal csm what = ordinal csm what' ↔ what' = what := by
      intro what'
      constructor
      · intro h
        have hok' := (elementAt_eq_ok_iff csm_nodup).mpr ⟨mem_csm what', h⟩
        rw [← hwhat, hok] at hok'
        exact (Except.ok.inj hok').symm
      · rintro rfl
        rfl
    simp only [honly, exists_eq_left]
    cases manager with
    | none => simp
    | some manager => simpa using manager.handle_thrown_iff env msg what
  · rw [herror]
    exact iff_of_false (fun h => Option.some_ne_none _ h) fun ⟨what, hwhat, _⟩ => hno what hwhat

/-- A `what` that names no constant leaves the service's state alone. -/
theorem handleServiceMessage_unknown (manager : Option (Registry Messenger))
    {msg : Message Messenger} (h : ∀ what, msg.what ≠ ordinal csm what) :
    (handleServiceMessage env manager msg).state = manager := by
  unfold handleServiceMessage
  rcases elementAt_cases csm_nodup mem_csm msg.what with ⟨what, hwhat, -⟩ | ⟨-, herror⟩
  · exact absurd hwhat (h what)
  · rw [herror]

end ServiceSide

section ClientSide

theorem castNetworkConnectionState_ok_iff (data : Bundle) :
    (∃ c, castNetworkConnectionState (data.getSerializable "networkConnectionState") = .ok c) ↔
      HoldsAtMost data "networkConnectionState" fun v => ∃ c, v = .networkConnectionState c := by
  unfold HoldsAtMost Bundle.getSerializable
  cases data "networkConnectionState" with
  | none => simp [castNetworkConnectionState]
  | some v => cases v <;> simp [castNetworkConnectionState, Option.filter]

theorem castVpnAppsExclusionSetting_ok_iff (data : Bundle) :
    (∃ mode, castVpnAppsExclusionSetting (data.getSerializable "vpnMode") = .ok mode) ↔
      HoldsAtMost data "vpnMode" fun v => ∃ mode, v = .vpnAppsExclusionSetting mode := by
  unfold HoldsAtMost Bundle.getSerializable
  cases data "vpnMode" with
  | none => simp [castVpnAppsExclusionSetting]
  | some v => cases v <;> simp [castVpnAppsExclusionSetting, Option.filter]

theorem getString_eq_some_iff {data : Bundle} {key s : String} :
    data.getString key = some s ↔ data key = some (.string s) := by
  unfold Bundle.getString
  cases data key with
  | none => simp
  | some v => cases v <;> simp

theorem getBoolean_iff {data : Bundle} {key : String} :
    data.getBoolean key = true ↔ data key = some (.boolean true) := by
  unfold Bundle.getBoolean
  cases data key with
  | none => simp
  | some v => cases v <;> simp

theorem castNetworkConnectionState_eq_some_iff {data : Bundle} {c : NetworkState} :
    castNetworkConnectionState (data.getSerializable "networkConnectionState") = .ok (some c) ↔
      data "networkConnectionState" = some (.networkConnectionState c) := by
  unfold Bundle.getSerializable
  cases data "networkConnectionState" with
  | none => simp [castNetworkConnectionState]
  | some v => cases v <;> simp [castNetworkConnectionState, Option.filter]

/-- **Reading the state** fails only at a cast, and leaves the three fields as the bundle has
them. -/
theorem getTunnelStateFromBundle_cases (data : Bundle) :
    (∃ state, getTunnelStateFromBundle data = .ok state ∧
      state.isRunning = data.getBoolean "isRunning" ∧
      castNetworkConnectionState (data.getSerializable "networkConnectionState")
        = .ok state.networkConnectionState ∧
      state.clientRegion = data.getString "clientRegion" ∧
      state.sponsorId = data.getString "sponsorId" ∧
      ∃ mode, castVpnAppsExclusionSetting (data.getSerializable "vpnMode") = .ok mode) ∨
    (∃ e, getTunnelStateFromBundle data = .error e) ∧
      ¬ ((∃ c, castNetworkConnectionState (data.getSerializable "networkConnectionState")
          = .ok c) ∧
        ∃ mode, castVpnAppsExclusionSetting (data.getSerializable "vpnMode") = .ok mode) := by
  unfold getTunnelStateFromBundle
  cases hnetwork : castNetworkConnectionState (data.getSerializable "networkConnectionState") with
  | error e =>
    refine Or.inr ⟨⟨e, rfl⟩, ?_⟩
    rintro ⟨⟨c, hc⟩, -⟩
    cases hc
  | ok c =>
    cases hmode : castVpnAppsExclusionSetting (data.getSerializable "vpnMode") with
    | error e =>
      refine Or.inr ⟨⟨e, rfl⟩, ?_⟩
      rintro ⟨-, mode, hm⟩
      cases hm
    | ok mode => exact Or.inl ⟨_, rfl, rfl, rfl, rfl, rfl, mode, rfl⟩

theorem buildConnectionData_cases (env : ClientEnv) (state : TunnelManager.State) :
    (∃ connectionData, buildConnectionData env state = .ok connectionData) ∧
      (state.networkConnectionState ≠ none ∧ state.clientRegion ≠ none ∧
        state.sponsorId ≠ none) ∨
    (∃ e, buildConnectionData env state = .error e) ∧
      ¬ (state.networkConnectionState ≠ none ∧ state.clientRegion ≠ none ∧
        state.sponsorId ≠ none) := by
  unfold buildConnectionData
  cases state.networkConnectionState <;> cases state.clientRegion <;> cases state.sponsorId <;>
    simp

/-- **The connection state** is taken exactly if the bundle is one it can be read from. -/
theorem tunnelConnectionState_thrown_iff (env : ClientEnv) (interactor : TunnelServiceInteractor)
    (data : Bundle) :
    (interactor.tunnelConnectionState env data).thrown = none ↔ StateBundle data := by
  unfold TunnelServiceInteractor.tunnelConnectionState
  rcases getTunnelStateFromBundle_cases data with
    ⟨state, hok, hrunning, hnetwork, hregion, hsponsor, hmode⟩ | ⟨⟨e, herror⟩, hno⟩
  · rw [hok]
    dsimp only
    have hcast := (castNetworkConnectionState_ok_iff data).mp ⟨_, hnetwork⟩
    have hcastMode := (castVpnAppsExclusionSetting_ok_iff data).mp hmode
    have hnull : (state.networkConnectionState ≠ none ∧ state.clientRegion ≠ none ∧
        state.sponsorId ≠ none) ↔
        (∃ c, data "networkConnectionState" = some (.networkConnectionState c)) ∧
        (∃ s, data "clientRegion" = some (.string s)) ∧
        ∃ s, data "sponsorId" = some (.string s) := by
      simp only [← getString_eq_some_iff, ← hregion, ← hsponsor,
        ← castNetworkConnectionState_eq_some_iff, hnetwork, Except.ok.injEq,
        ← Option.ne_none_iff_exists']
    by_cases hflag : state.isRunning = true
    · rw [if_pos hflag]
      rw [hrunning, getBoolean_iff] at hflag
      rcases buildConnectionData_cases env state with
        ⟨⟨c, hbuilt⟩, hfields⟩ | ⟨⟨e, hbuilt⟩, hfields⟩
      · rw [hbuilt]
        exact iff_of_true rfl ⟨hcast, hcastMode, fun _ => hnull.mp hfields⟩
      · rw [hbuilt]
        exact iff_of_false (Option.some_ne_none e) fun h => hfields (hnull.mpr (h.running hflag))
    · rw [if_neg hflag]
      rw [hrunning, getBoolean_iff] at hflag
      exact iff_of_true rfl ⟨hcast, hcastMode, fun h => absurd h hflag⟩
  · rw [herror]
    refine iff_of_false (Option.some_ne_none e) fun h => hno ⟨?_, ?_⟩
    · exact (castNetworkConnectionState_ok_iff data).mpr h.network
    · exact (castVpnAppsExclusionSetting_ok_iff data).mpr h.mode

variable {Messenger : Type*} (env : ClientEnv)

/-- **The client.** -/
theorem handleClientMessage_thrown_iff (interactor : Option TunnelServiceInteractor)
    (msg : Message Messenger) :
    (handleClientMessage env interactor msg).thrown = none ↔
      ClientTakes interactor.isSome msg := by
  unfold handleClientMessage ClientTakes
  cases interactor with
  | none => exact iff_of_true rfl fun h => absurd h (by decide)
  | some interactor =>
    simp only [Option.isSome_some, true_imp_iff]
    have hlength : (scm.length : ℤ) = 4 := rfl
    rw [hlength]
    by_cases hlarge : msg.what > 4
    · rw [if_pos hlarge]
      exact iff_of_true rfl ⟨by omega, by omega, fun h => by omega⟩
    · rw [if_neg hlarge]
      rcases elementAt_cases scm_nodup mem_scm msg.what with ⟨what, hwhat, hok⟩ | ⟨hno, herror⟩
      · rw [hok]
        cases what with
        | TUNNEL_CONNECTION_STATE =>
          have hzero : msg.what = 0 := hwhat
          have hcase := tunnelConnectionState_thrown_iff env interactor msg.getData
          exact hcase.trans ⟨fun h => ⟨by omega, by omega, fun _ => h⟩, fun h => h.2.2 hzero⟩
        | DATA_TRANSFER_STATS =>
          have hone : msg.what = 1 := hwhat
          exact iff_of_true rfl ⟨by omega, by omega, fun h => by omega⟩
        | PING =>
          have htwo : msg.what = 2 := hwhat
          exact iff_of_true rfl ⟨by omega, by omega, fun h => by omega⟩
        | NFC_CONNECTION_INFO_EXCHANGE_EXPORT =>
          have hthree : msg.what = 3 := hwhat
          exact iff_of_true rfl ⟨by omega, by omega, fun h => by omega⟩
      · rw [herror]
        refine iff_of_false (Option.some_ne_none _) fun ⟨hnonneg, hfour, _⟩ => ?_
        have h0 : msg.what ≠ 0 := hno .TUNNEL_CONNECTION_STATE
        have h1 : msg.what ≠ 1 := hno .DATA_TRANSFER_STATS
        have h2 : msg.what ≠ 2 := hno .PING
        have h3 : msg.what ≠ 3 := hno .NFC_CONNECTION_INFO_EXCHANGE_EXPORT
        omega

/-- A `what` that names no constant leaves the client's state alone. -/
theorem handleClientMessage_unknown (interactor : Option TunnelServiceInteractor)
    {msg : Message Messenger} (h : ∀ what, msg.what ≠ ordinal scm what) :
    (handleClientMessage env interactor msg).state = interactor := by
  unfold handleClientMessage
  cases interactor with
  | none => rfl
  | some interactor =>
    dsimp only
    split
    · rfl
    · rcases elementAt_cases scm_nodup mem_scm msg.what with ⟨what, hwhat, -⟩ | ⟨-, herror⟩
      · exact absurd hwhat (h what)
      · rw [herror]

end ClientSide

/-- **The handlers.**  For every message, in every state of the two sides, a handler ends without
an exception exactly if it takes the message, and a `what` that names no constant changes
nothing. -/
theorem ipc_total_iff {Messenger : Type*} (serviceEnv : ServiceEnv Messenger)
    (clientEnv : ClientEnv) (manager : Option (Registry Messenger))
    (interactor : Option TunnelServiceInteractor) (msg : Message Messenger) :
    ((handleServiceMessage serviceEnv manager msg).thrown = none ↔
      ServiceTakes manager.isSome msg) ∧
    ((handleClientMessage clientEnv interactor msg).thrown = none ↔
      ClientTakes interactor.isSome msg) ∧
    ((∀ what, msg.what ≠ ordinal csm what) →
      (handleServiceMessage serviceEnv manager msg).state = manager) ∧
    ((∀ what, msg.what ≠ ordinal scm what) →
      (handleClientMessage clientEnv interactor msg).state = interactor) :=
  ⟨handleServiceMessage_thrown_iff serviceEnv manager msg,
    handleClientMessage_thrown_iff clientEnv interactor msg,
    handleServiceMessage_unknown serviceEnv manager,
    handleClientMessage_unknown clientEnv interactor⟩

/-- **What is not taken.**  For the service the number of constants, with or without a manager, and
UNREGISTER without a messenger to answer to; for the client the number of constants, though not the
number after it, and a running state without a region. -/
theorem handlers_throw :
    let serviceEnv : ServiceEnv ℕ := ⟨fun m => m, fun _ _ => true, none, fun _ => none, none⟩
    let manager : Registry ℕ := ⟨fun _ => none, .new, []⟩
    let clientEnv : ClientEnv := ⟨"1", "2", 0⟩
    let interactor : TunnelServiceInteractor :=
      ⟨.unknown, none, ⟨0, 0, 0, none, 0, none, 0, 0, 0⟩, none, none⟩
    let data : Bundle := fun key => if key = "isRunning" then some (.boolean true) else none
    let clientThrows := fun msg : Message ℕ =>
      (handleClientMessage clientEnv (some interactor) msg).thrown
    (handleServiceMessage serviceEnv none ⟨7, some 0, none⟩).thrown
      = some .arrayIndexOutOfBounds ∧
    (handleServiceMessage serviceEnv (some manager) ⟨1, none, none⟩).thrown
      = some .nullPointer ∧
    clientThrows ⟨4, none, none⟩ = some .arrayIndexOutOfBounds ∧
    clientThrows ⟨5, none, none⟩ = none ∧
    clientThrows ⟨0, none, some data⟩ = some .nullPointer := by
  refine ⟨rfl, rfl, rfl, rfl, ?_⟩
  decide

end ShiroKhorshid.Service

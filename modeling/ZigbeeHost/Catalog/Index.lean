import ZigbeeHost.Catalog.Application
import ZigbeeHost.Catalog.Commissioning
import ZigbeeHost.Catalog.DeviceObject
import ZigbeeHost.Catalog.SimpleApi
import ZigbeeHost.Catalog.System
import ZigbeeHost.Catalog.Utility
import ZigbeeHost.Command.DeviceError

/-!
# The whole catalog

All records of the catalog, by subsystem. Main statement: each of them has a
consistent layout, so that encoding and decoding never fail for that reason.
-/

namespace ZigbeeHost.Catalog

def systemRecords : List WireType :=
  [resetRequest, capabilities, pingResponse, versionResponse, setExtendedAddressRequest,
    extendedAddressResponse, memoryReadRequest, memoryReadResponse, memoryWriteRequest,
    itemReadRequest, itemReadResponse, itemWriteRequest, startTimerRequest, stopTimerRequest,
    randomResponse, time, setPowerRequest, setPowerResponse, resetIndication, timerExpired]

def applicationRecords : List WireType :=
  [registerRequest, dataRequestOptions, dataRequest, extendedDataRequest, deleteRequest,
    dataConfirm, incomingMessage]

def deviceObjectRecords : List WireType :=
  [networkAddressRequest, ieeeAddressRequest, activeEndpointsRequest, bindRequest,
    networkDiscoveryRequest, leaveRequest, permitJoinRequest, startupRequest, startupResponse,
    networkAddressResponse, ieeeAddressResponse, activeEndpointsResponse, sourceStatusResponse,
    network, networkDiscoveryResponse, stateChangeIndication, deviceCapabilities,
    deviceAnnouncement, leaveIndication, trustCenterIndication]

def simpleApiRecords : List WireType :=
  [readConfigurationRequest, readConfigurationResponse, writeConfigurationRequest,
    permitJoiningRequest, deviceParameterRequest, deviceStateValue, ieeeValue, shortValue,
    channelValue, panIdValue, deviceParameterValue, deviceParameterResponse, startConfirm,
    findDeviceConfirm]

def utilityRecords : List WireType :=
  [deviceTypes, deviceInfoResponse, ledControlRequest, loopbackData]

def commissioningRecords : List WireType :=
  [startCommissioningRequest, setChannelsRequest, commissioningNotification]

def all : List WireType :=
  [statusResponse, errorFrame] ++ systemRecords ++ applicationRecords ++ deviceObjectRecords ++
    simpleApiRecords ++ utilityRecords ++ commissioningRecords

/-- The name of a record or of a variant. -/
def name? : WireType → Option String
  | .record name _ _ => some name
  | .variant name _ _ _ => some name
  | _ => none

/-- The type of the given name, if the catalog has one. -/
def find? (name : String) : Option WireType :=
  all.find? fun type => name? type = some name

/-- Every record of the catalog has a consistent layout. -/
theorem isOk_checkLayout_of_mem_all : ∀ type ∈ all, type.checkLayout.isOk = true := by
  decide +kernel

end ZigbeeHost.Catalog

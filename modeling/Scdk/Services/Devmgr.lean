import Scdk.Kernel

/-! # The device manager

    Model of `services/devmgr_service.c`: devices and their queues behind
    capabilities. -/

namespace Scdk

/-- `struct scdk_devmgr_device` -/
structure DevmgrDevice where
  objectId : UInt64
  cap : UInt64
  deviceId : UInt64
  present : Bool
  deriving DecidableEq, Repr

/-- `struct scdk_devmgr_queue` -/
structure DevmgrQueue where
  objectId : UInt64
  cap : UInt64
  deviceId : UInt64
  boundTarget : UInt64
  present : Bool
  deriving DecidableEq, Repr

/-- The statics `devices` and `queues`. -/
structure DevmgrTables where
  devices : Fin devmgrMaxDevices → DevmgrDevice
  queues : Fin devmgrMaxQueues → DevmgrQueue

/-- `SCDK_DEVMGR_FAKE_DEVICE_ID` -/
def devmgrFakeDeviceId : UInt64 := 1

/-- The rights a device capability is minted with. -/
def deviceRights : UInt64 := Right.read ||| Right.bind ||| Right.revoke

/-- The rights a queue capability is minted with. -/
def deviceQueueRights : UInt64 := Right.read ||| Right.write ||| Right.bind ||| Right.revoke

/-- `devmgr_queue_from_cap` -/
def devmgrQueueFromCap (o : ObjectTable) (c : CapTable) (d : DevmgrTables)
    (queueCap requiredRights : UInt64) : Except Err (Fin devmgrMaxQueues) :=
  payloadLookup o c queueCap requiredRights ObjType.deviceQueue fun payload objectId =>
    match payload with
    | .deviceQueue i =>
      if (d.queues i).objectId ≠ objectId ∨ (d.queues i).present = false then .error .noent
      else .ok i
    | _ => .error .noent

/-- `devmgr_register_fake_device`, with the message as a value. -/
def devmgrRegisterFakeDevice (o : ObjectTable) (c : CapTable) (d : DevmgrTables) (msg : Message) :
    Except Err Message × ObjectTable × CapTable × DevmgrTables :=
  if msg.arg0 ≠ devmgrFakeDeviceId then (.error .inval, o, c, d)
  else
    match Slots.firstSlot fun i => !(d.devices i).present,
        Slots.firstSlot fun i => !(d.queues i).present with
    | some i, some q =>
      match objectCreate o ObjType.device bootCore 0 (.device i) with
      | (.error e, o) => (.error e, o, c, d)
      | (.ok deviceObject, o) =>
        match capCreate o c deviceObject deviceRights with
        | (.error e, c) => (.error e, o, c, d)
        | (.ok deviceCap, c) =>
          match objectCreate o ObjType.deviceQueue bootCore 0 (.deviceQueue q) with
          | (.error e, o) => (.error e, o, c, d)
          | (.ok queueObject, o) =>
            match capCreate o c queueObject deviceQueueRights with
            | (.error e, c) => (.error e, o, c, d)
            | (.ok queueCap, c) =>
              let device : DevmgrDevice := ⟨deviceObject, deviceCap, devmgrFakeDeviceId, true⟩
              let queue : DevmgrQueue := ⟨queueObject, queueCap, deviceObject, 0, true⟩
              (.ok { msg with arg0 := deviceCap, arg1 := queueCap }, o, c,
                ⟨Function.update d.devices i device, Function.update d.queues q queue⟩)
    | _, _ => (.error .nomem, o, c, d)

/-- `devmgr_bind_queue` -/
def devmgrBindQueue (o : ObjectTable) (c : CapTable) (d : DevmgrTables) (msg : Message) :
    Except Err Unit × DevmgrTables :=
  if msg.arg0 = 0 ∨ msg.arg1 = 0 then (.error .inval, d)
  else
    match capCheck o c msg.arg1 Right.send ObjType.endpoint with
    | .error e => (.error e, d)
    | .ok _ =>
      match devmgrQueueFromCap o c d msg.arg0 Right.bind with
      | .error e => (.error e, d)
      | .ok i =>
        let queue := { d.queues i with boundTarget := msg.arg1 }
        (.ok (), { d with queues := Function.update d.queues i queue })

end Scdk

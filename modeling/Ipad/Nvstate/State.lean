import Ipad.Buf

namespace Ipad.Nvstate

structure AutoEnable where
  flag : Bool
  smdpOid : Option IpaBuf
  smdpAddress : Option IpaBuf
  deriving DecidableEq, Repr

structure IotEuiccEmu where
  associationTokenCounter : Int32
  eimCfgBer : Option IpaBuf
  autoEnable : AutoEnable
  deriving DecidableEq, Repr

structure IpaNvstate where
  version : UInt32
  iotEuiccEmu : IotEuiccEmu
  deriving DecidableEq, Repr

def ipaNvstateVersion : UInt32 := 3

def IpaNvstate.fresh : IpaNvstate :=
  { version := ipaNvstateVersion
    iotEuiccEmu :=
      { associationTokenCounter := 0, eimCfgBer := none
        autoEnable := { flag := false, smdpOid := none, smdpAddress := none } } }

end Ipad.Nvstate

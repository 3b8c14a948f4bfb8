import Gateway.Model.Ids

/-! @src z-wave/GenericZWaveMessageFactory.cpp, z-wave/manufacturers/*.cpp,
    z-wave/ZWaveDeviceManager.cpp | name:The factories of Z-Wave messages | family:data

    A product's class is found in two steps: the manufacturer's factory in the map of
    `GenericZWaveMessageFactory`, then the product in a switch of that factory. Both raise for what they
    do not know. -/

namespace BeeeOn

/-- The product classes. -/
inductive ZWaveProduct where
  | aeotecZW100 | dLinkDchZ120 | fibaroFGK107 | philioPST021C | popp123601
  deriving DecidableEq, Repr

namespace GenericZWaveMessageFactory

def AEOTEC_MANUFACTURER : ℕ := 0x0086
def DLINK_MANUFACTURER : ℕ := 0x0108
def FIBARO_MANUFACTURER : ℕ := 0x010f
def PHILIO_MANUFACTURER : ℕ := 0x013c
def POPP_MANUFACTURER : ℕ := 0x0154

/-- The map after `installManufacturers`, each factory with the one product of its switch. -/
def manufacturers : List (ℕ × ℕ × ZWaveProduct) :=
  [(AEOTEC_MANUFACTURER, 0x0064, .aeotecZW100), (DLINK_MANUFACTURER, 0x000d, .dLinkDchZ120),
    (FIBARO_MANUFACTURER, 0x1000, .fibaroFGK107), (PHILIO_MANUFACTURER, 0x000e, .philioPST021C),
    (POPP_MANUFACTURER, 0x0001, .popp123601)]

def create (manufacturer product : ℕ) : Except Exn ZWaveProduct :=
  match manufacturers.find? (·.1 = manufacturer) with
  | none => .error .other
  | some factory => if factory.2.1 = product then .ok factory.2.2 else .error .other

end GenericZWaveMessageFactory
end BeeeOn

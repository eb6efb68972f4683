/-! Byte strings, kept as lists so that a message can be read by recursion on its bytes. -/
namespace DeviceBus

abbrev Bytes := List UInt8

end DeviceBus

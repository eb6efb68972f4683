import DeviceBus.Text.Utf8

/-! Sinks for text. A text is written character by character, each one as its bytes. A sink may refuse some of them, and
nothing more is written then; memory takes everything. -/
namespace DeviceBus

structure Sink where
  put : Bytes → Bytes → Except String Bytes

namespace Sink

def memory : Sink := ⟨fun held bytes => .ok (held ++ bytes)⟩

def write (sink : Sink) (held : Bytes) (text : List Char) : Except String Bytes :=
  text.foldlM (fun held c => sink.put held (Utf8.encodeChar c)) held

end Sink
end DeviceBus

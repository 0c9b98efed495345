import TypedMemory.Text.Utf16
import TypedMemory.Text.Utf8

/-!
# Text of unknown encoding

A text may start with a byte order mark, which names its encoding and is no part of it.  Without one
it is read as UTF-8.
-/

namespace TypedMemory.Text

/-- Decodes `bytes` by their byte order mark, replacing what is malformed. -/
def decodeMarked : Bytes → String
  | 0xef :: 0xbb :: 0xbf :: rest => Utf8.decodeLossy rest
  | 0xfe :: 0xff :: rest => Utf16.decodeLossy true rest
  | 0xff :: 0xfe :: rest => Utf16.decodeLossy false rest
  | bytes => Utf8.decodeLossy bytes

end TypedMemory.Text

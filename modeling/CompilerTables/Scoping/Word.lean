/-!
# Machine words

Data space is counted in words.  All arithmetic here is machine arithmetic: byte counts are 64 bits
wide, and word sizes and addresses 32 bits.
-/

namespace CompilerTables
namespace Scoping

/-- A place in data space, in words. -/
abbrev Address := UInt32

/-- The number of words that hold so many bytes; a partial word counts as one. -/
def wordsFor (bytes : UInt64) (wordSize : UInt32) : UInt64 :=
  let whole := bytes / wordSize.toUInt64
  if bytes % wordSize.toUInt64 = 0 then whole else whole + 1

end Scoping
end CompilerTables

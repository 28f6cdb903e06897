import Symbolication.Main
import Symbolication.Proofs.UnitCache.Session
import Symbolication.Proofs.Decoder.Reads
import Symbolication.Proofs.Decoder.Placeless
import Symbolication.Proofs.Abbreviation
import Symbolication.Proofs.AddressIndex
import Symbolication.Proofs.CompileUnit.Header
import Symbolication.Proofs.Entry.Attribute
import Symbolication.Proofs.Entry.Forest
import Symbolication.Proofs.Line.Header
import Symbolication.Proofs.Line.Instruction
import Symbolication.Proofs.Line.Program
import Symbolication.Proofs.Line.Coverage
import Symbolication.Proofs.Line.Sequence
import Symbolication.Proofs.Line.Framing
import Symbolication.Proofs.Line.Composition
import Symbolication.Proofs.Line.Expansion
import Symbolication.Proofs.Line.Skipping
import Symbolication.Proofs.Line.Emission
import Symbolication.Proofs.Line.Advance
import Symbolication.Proofs.Line.Acceptance
import Symbolication.Proofs.Line.Ascent
import Symbolication.Proofs.SourceObject.Basic
import Symbolication.Proofs.SourceObject.Decoding
import Symbolication.Proofs.SourceObject.Resolution
import Symbolication.Proofs.Decoder.Relocation
import Symbolication.Proofs.DecodeError.Readings
import Symbolication.Proofs.UnitCache.Answer
import Symbolication.Proofs.DecodeError.Location
import Symbolication.Proofs.DebugSection.Surroundings
import Symbolication.Proofs.CompileUnit.Placement
import Symbolication.Proofs.Entry.Row
import Symbolication.Proofs.Entry.Scopes
import Symbolication.Proofs.Entry.Ancestry
import Symbolication.Proofs.Entry.Composition
import Symbolication.Proofs.CompileUnit.Chain
import Symbolication.Proofs.CompileUnit.Reference
import Symbolication.Proofs.AddressIndex.Concatenation
import Symbolication.Proofs.AddressIndex.Tiling
import Symbolication.Proofs.Symbolizer
import Symbolication.Proofs.ObjectFile.Sections
import Symbolication.Proofs.ObjectFile.Lookup
import Symbolication.Proofs.Checked.DebugImage
import Symbolication.Proofs.RangeList
import Symbolication.Proofs.Subprogram.Lookup
import Symbolication.Proofs.Subprogram.Extent
import Symbolication.Proofs.Subprogram.QualifiedName
import Symbolication.Proofs.Subprogram.Classes
import Symbolication.Proofs.Encoding.Unsigned
import Symbolication.Proofs.Encoding.Signed
import Symbolication.Proofs.Address
import Symbolication.Proofs.CommandLine.FileName
import Symbolication.Proofs.Reader.Stack

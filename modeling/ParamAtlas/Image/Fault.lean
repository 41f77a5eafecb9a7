/-
# Faulty images

Why bytes are no image that can be read.  Most faults say that a part of the
file is not where another part says it is.
-/

namespace ParamAtlas
namespace Image

/-- Why bytes are no image. -/
inductive Fault where
  | noMagic
  | unknownMagic
  | notAnObject
  | unknownDosFile
  | unknownAnonymousObject
  | elfHeader
  | elfUnsupported
  | elfProgramEntrySize
  | elfPrograms
  | elfSectionEntrySize
  | elfFirstSection
  | elfSections
  | elfMissingSections
  | elfMissingNamesIndex
  | elfNamesIndex
  | elfNamesSize
  | elfSymbols
  | elfSectionIndex
  | elfTextKind
  | elfTextRange
  | elfWideIndexes
  | elfRelocationTarget
  | elfRelocationChain
  | coffHeader
  | coffBigHeader
  | coffSections
  | coffSymbols
  | coffText
  | peHeaders
  | peMagic
  | peOptionalTooSmall
  | peOptional
  | peDirectories
  | machOHeader
  | machOCommand
  | machOSectionCount
  | machOSymbols
  | xcoffHeader
  | xcoffOptional
  | xcoffSections
  | xcoffSymbols
  | xcoffTexts
  deriving DecidableEq, Repr, Inhabited

/-- The text of a fault. -/
def Fault.message : Fault → String
  | noMagic => "Could not read file magic"
  | unknownMagic => "Unknown file magic"
  | notAnObject => "Unsupported file format"
  | unknownDosFile => "Unknown MS-DOS file"
  | unknownAnonymousObject => "Unknown anon object file"
  | elfHeader => "Invalid ELF header size or alignment"
  | elfUnsupported => "Unsupported ELF header"
  | elfProgramEntrySize => "Invalid ELF program header entry size"
  | elfPrograms => "Invalid ELF program header size or alignment"
  | elfSectionEntrySize => "Invalid ELF section header entry size"
  | elfFirstSection => "Invalid ELF section header offset or size"
  | elfSections => "Invalid ELF section header offset/size/alignment"
  | elfMissingSections => "Missing ELF section headers for e_phnum overflow"
  | elfMissingNamesIndex => "Missing ELF e_shstrndx"
  | elfNamesIndex => "Invalid ELF e_shstrndx"
  | elfNamesSize => "Invalid ELF shstrtab size"
  | elfSymbols => "Invalid ELF symbol table data"
  | elfSectionIndex => "Invalid ELF section index"
  | elfTextKind => "Invalid ELF string section type"
  | elfTextRange => "Invalid ELF string section offset or size"
  | elfWideIndexes => "Invalid ELF symtab_shndx data"
  | elfRelocationTarget => "Invalid ELF sh_info for relocation section"
  | elfRelocationChain => "Unsupported ELF sh_info for relocation section"
  | coffHeader => "Invalid COFF file header size or alignment"
  | coffBigHeader => "Invalid COFF bigobj file header size or alignment"
  | coffSections => "Invalid COFF/PE section headers"
  | coffSymbols => "Invalid COFF symbol table offset or size"
  | coffText => "Missing COFF string table"
  | peHeaders => "Invalid PE headers offset or size"
  | peMagic => "Invalid PE magic"
  | peOptionalTooSmall => "PE optional header size is too small"
  | peOptional => "Invalid PE optional header size"
  | peDirectories => "Invalid PE number of RVA and sizes"
  | machOHeader => "Invalid Mach-O header size or alignment"
  | machOCommand => "Invalid Mach-O command size"
  | machOSectionCount => "Invalid Mach-O number of sections"
  | machOSymbols => "Invalid Mach-O symbol table offset or size"
  | xcoffHeader => "Invalid XCOFF header size or alignment"
  | xcoffOptional => "Invalid XCOFF auxiliary header size"
  | xcoffSections => "Invalid XCOFF section headers"
  | xcoffSymbols => "Invalid XCOFF symbol table offset or size"
  | xcoffTexts => "Missing XCOFF string table"

end Image
end ParamAtlas

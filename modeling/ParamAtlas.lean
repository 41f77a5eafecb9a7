import ParamAtlas.Dwarf.Assembly
import ParamAtlas.Forest.Deliveries
import ParamAtlas.Forest.Memory
import ParamAtlas.Main
import ParamAtlas.Proofs.Dwarf.Coverage
import ParamAtlas.Proofs.Dwarf.LineProgram
import ParamAtlas.Proofs.Dwarf.Lookup
import ParamAtlas.Proofs.Dwarf.NextSibling
import ParamAtlas.Proofs.Dwarf.Offsets
import ParamAtlas.Proofs.Dwarf.Tree
import ParamAtlas.Proofs.Dwarf.UnitReference
import ParamAtlas.Proofs.Extraction
import ParamAtlas.Proofs.Forest.Kinship
import ParamAtlas.Proofs.Forest.Precedence
import ParamAtlas.Proofs.Listing.Document
import ParamAtlas.Proofs.Listing.Join
import ParamAtlas.Proofs.Listing.Lines
import ParamAtlas.Proofs.Listing.Order
import ParamAtlas.Proofs.Forest.Steps
import ParamAtlas.Proofs.Dwarf.Progress
import ParamAtlas.Proofs.Accounting
import ParamAtlas.Proofs.Bytes.Basic
import ParamAtlas.Proofs.Bytes.Utf8
import ParamAtlas.Proofs.Dwarf.Decoding
import ParamAtlas.Proofs.Dwarf.Plan.Assembly
import ParamAtlas.Proofs.Dwarf.Plan.Entries
import ParamAtlas.Proofs.Dwarf.Plan.Memory
import ParamAtlas.Proofs.Dwarf.Plan.ReadBack
import ParamAtlas.Proofs.Listing.Comparison
import ParamAtlas.Proofs.Extraction.Outcome
import ParamAtlas.Proofs.Extraction.Settings
import ParamAtlas.Proofs.Forest.UnitOrder
import ParamAtlas.Proofs.Forest.RecursiveOrder
import ParamAtlas.Proofs.Forest.OriginChain
import ParamAtlas.Proofs.Dwarf.LaterBytes
import ParamAtlas.Proofs.Command.Effect
import ParamAtlas.Proofs.Forest.Ancestry
import ParamAtlas.Proofs.Forest.SameOrigins
import ParamAtlas.Proofs.Forest.Subprogram
import ParamAtlas.Proofs.Listing.Capacity
import ParamAtlas.Proofs.ParameterTable.Commits
import ParamAtlas.Proofs.Forest.OriginLookups

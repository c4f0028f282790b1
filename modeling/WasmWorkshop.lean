import WasmWorkshop.Json.Codec
import WasmWorkshop.Operator
import WasmWorkshop.Proofs.BuiltModules
import WasmWorkshop.Proofs.Recovery
import WasmWorkshop.Proofs.SessionHistory
import WasmWorkshop.Proofs.SymbolRules
import WasmWorkshop.Session.Evaluation
import WasmWorkshop.Proofs.DataRegion
import WasmWorkshop.Proofs.EscapedBytes
import WasmWorkshop.Proofs.MemoryImage
import WasmWorkshop.Proofs.NamespaceSlices
import WasmWorkshop.Proofs.ItemOrder
import WasmWorkshop.Proofs.Linking
import WasmWorkshop.Proofs.PipelineCourse
import WasmWorkshop.Proofs.BalancedSessions
import WasmWorkshop.Proofs.WriterRuns
import WasmWorkshop.Proofs.LiteralNodes
import WasmWorkshop.Proofs.JsonRoundTrip
import WasmWorkshop.Proofs.IdleCompiler
import WasmWorkshop.Proofs.ModuleExports
import WasmWorkshop.Proofs.MemoryCover
import WasmWorkshop.Proofs.Renaming
import WasmWorkshop.Proofs.Splicing
import WasmWorkshop.Proofs.ScopeBlocks
import WasmWorkshop.Proofs.PrototypeSteps
import WasmWorkshop.Proofs.CompilerVerdict
import WasmWorkshop.Proofs.EscapedForms
import WasmWorkshop.Proofs.ReportTexts
import WasmWorkshop.Proofs.GivenFields
import WasmWorkshop.Proofs.WalkedScopes

import Marine.Lib.Runs
import Marine.Lib.Ledger
import Marine.Backend.Store
import Marine.Backend.Budget
import Marine.HostImports.Lifting
import Marine.Errors
import Marine.HostImports.Lowering
import Marine.Runtime.Core
import Marine.Lib.Maps
import Marine.Runtime.Instance
import Marine.Runtime.InterfaceCache
import Marine.Runtime.OomAttribution
import Marine.Ast
import Marine.Generator.Resolver
import Marine.Generator.Functions
import Marine.Generator.Interfaces
import Marine.Loader.ItInstance
import Marine.Generator.Layout
import Marine.Loader.CallCore
import Marine.Lib.StackCode
import Marine.Loader.AdapterTyping
import Marine.Lib.Walks
import Marine.Loader.ItInterface
import Marine.Generator.Records
import Marine.Loader.Acceptance
import Marine.Loader.DeclaredInterface
import Marine.Generator.Dangling
import Marine.Loader.InterfaceClosure
import Marine.Lib.DepthFirst
import Marine.Interface.ModuleInterface
import Marine.Interface.PublishedRecords
import Marine.Json.Value
import Marine.Json.Converters
import Marine.Json.Soundness
import Marine.Json.Records
import Marine.Loader.ModuleLoading
import Marine.Loader.LoadingPanics
import Marine.HostImports.Calls
import Marine.Runtime.LoadedMemories
import Marine.HostImports.WireFormat
import Marine.Lib.Slices
import Marine.Backend.Memory
import Marine.HostImports.Logger
import Marine.Generator.RecordNesting
import Marine.Json.Panics
import Marine.Json.Positional
import Marine.ModuleInfo.Manifest
import Marine.Lib.Collections
import Marine.ModuleInfo.CustomSections
import Marine.JsBackend.CallStack
import Marine.Lib.Journal
import Marine.Loader.LoadingEffects
import Marine.Runtime.DuplicateNames
import Marine.Interface.SignatureOrder
import Marine.Utils.WasmPages
import Marine.Loader.SharedAdapters
import Marine.Loader.LinkingErrors
import Marine.HostImports.LoggerFilter
import Marine.Config.ModuleConfig
import Marine.Interface.RecordOrder
import Marine.Lib.Words
import Marine.Repl.JsonText
import Marine.Repl.Squeezing
import Marine.Repl.CallLines
import Marine.Lib.EffectCode
import Marine.Loader.AdapterMeaning
import Marine.Backend.Linker
import Marine.Config.MarineConfig
import Marine.Lib.Stateful
import Marine.Loader.AdapterCalls
import Marine.Loader.HostEnvironment
import Marine.Loader.LinkedCalls
import Marine.Loader.Marshalling
import Marine.Runtime.Startup
import Marine.HostImports.CallParameters
import Marine.Runtime.EnteredCalls
import Marine.Service.AppService
import Marine.Web.WebService
import Marine.Backend.ModuleInfo
import Marine.Cli.BuiltModules
import Marine.Service.PublishedInterface
import Marine.Cli.Workspace

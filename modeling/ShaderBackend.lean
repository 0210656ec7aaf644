import ShaderBackend.Checked
import ShaderBackend.Device
import ShaderBackend.Fault
import ShaderBackend.Log.Calendar
import ShaderBackend.Log.Console
import ShaderBackend.Log.Entry
import ShaderBackend.Log.FileSystem
import ShaderBackend.Log.Logger
import ShaderBackend.Log.Severity
import ShaderBackend.OrderedMap
import ShaderBackend.Platform
import ShaderBackend.Pool.Client
import ShaderBackend.Pool.Schedule
import ShaderBackend.Pool.Sizing
import ShaderBackend.Pool.Slot
import ShaderBackend.Pool.State
import ShaderBackend.Pool.Tasks
import ShaderBackend.Proofs.Spirv.Dissection
import ShaderBackend.Proofs.Spirv.Edits
import ShaderBackend.Proofs.Spirv.Levels
import ShaderBackend.Proofs.Spirv.Removal
import ShaderBackend.Proofs.Spirv.Search
import ShaderBackend.Render.Flags
import ShaderBackend.Render.Format
import ShaderBackend.Render.Operations
import ShaderBackend.Render.Pass
import ShaderBackend.Render.PassPool
import ShaderBackend.Render.Plan
import ShaderBackend.Settings
import ShaderBackend.Shader.Async
import ShaderBackend.Shader.Basic
import ShaderBackend.Shader.DescriptorMapping
import ShaderBackend.Shader.Interface
import ShaderBackend.Shader.Stage
import ShaderBackend.Signature.Chunk
import ShaderBackend.Signature.Cursor
import ShaderBackend.Signature.Entry
import ShaderBackend.Signature.Layout
import ShaderBackend.Signature.Readers
import ShaderBackend.Signature.Table
import ShaderBackend.Signature.Tag
import ShaderBackend.Spirv.Bytes
import ShaderBackend.Spirv.Checked
import ShaderBackend.Spirv.Code
import ShaderBackend.Spirv.Elimination
import ShaderBackend.Spirv.InPlace
import ShaderBackend.Spirv.InputScan
import ShaderBackend.Spirv.Instruction
import ShaderBackend.Spirv.Listing
import ShaderBackend.Spirv.Literal
import ShaderBackend.Spirv.Numbers
import ShaderBackend.Spirv.Specialization
import ShaderBackend.Spirv.Survey
import ShaderBackend.Spirv.TypeTable
import ShaderBackend.Text.Blank
import ShaderBackend.Text.Hex
import ShaderBackend.Text.Quoted
import ShaderBackend.Text.Unseen
import ShaderBackend.Text.Utf8
import ShaderBackend.Vulkan.Device
import ShaderBackend.Vulkan.Numbers
import ShaderBackend.Vulkan.PassDescription
import ShaderBackend.Proofs.Spirv.Refinement
import ShaderBackend.Proofs.Spirv.Tiling
import ShaderBackend.Proofs.Spirv.Untouched
import ShaderBackend.Proofs.Spirv.Typing
import ShaderBackend.Proofs.Spirv.Retyping
import ShaderBackend.Proofs.Shader.Registration
import ShaderBackend.Proofs.Spirv.Locations
import ShaderBackend.Proofs.Spirv.Mask
import ShaderBackend.Proofs.Spirv.Recorded
import ShaderBackend.Proofs.Spirv.Frame
import ShaderBackend.Proofs.Spirv.Privatized
import ShaderBackend.Proofs.Spirv.Independence
import ShaderBackend.Proofs.Pool.Accounts
import ShaderBackend.Proofs.Pool.Joining
import ShaderBackend.Proofs.Pool.Verdicts
import ShaderBackend.Proofs.Pool.Rest
import ShaderBackend.Proofs.Pool.Schedule
import ShaderBackend.Proofs.Render.Scene
import ShaderBackend.Proofs.Render.Ledger
import ShaderBackend.Proofs.Render.Release
import ShaderBackend.Proofs.Render.Keyed
import ShaderBackend.Proofs.Render.OneBuild
import ShaderBackend.Proofs.Signature.Reading
import ShaderBackend.Proofs.Signature.Grammar
import ShaderBackend.Proofs.Signature.Acceptance
import ShaderBackend.Proofs.Encoding
import ShaderBackend.Proofs.Signature.RoundTrip
import ShaderBackend.Proofs.Render.Slots
import ShaderBackend.Proofs.Vulkan.Description
import ShaderBackend.Proofs.Shader.Creation
import ShaderBackend.Proofs.Shader.Lifecycle
import ShaderBackend.Proofs.Shader.Custody
import ShaderBackend.Proofs.Shader.Kept
import ShaderBackend.Proofs.Shader.Progress
import ShaderBackend.Proofs.Shader.Delivery
import ShaderBackend.Proofs.Render.Compatibility
import ShaderBackend.Proofs.Shader.SlotIndex
import ShaderBackend.Proofs.Shader.SlotHistory
import ShaderBackend.Proofs.Spirv.TypeWalk
import ShaderBackend.Proofs.Spirv.Innermost
import ShaderBackend.Proofs.Spirv.Transaction
import ShaderBackend.Proofs.Spirv.Sites
import ShaderBackend.Proofs.Spirv.Writes
import ShaderBackend.Proofs.Spirv.FreshIds
import ShaderBackend.Proofs.Render.References
import ShaderBackend.Proofs.Render.Dependencies
import ShaderBackend.Proofs.Pool.WindingDown
import ShaderBackend.Proofs.Spirv.Bounds
import ShaderBackend.Proofs.Shader.PushConstants
import ShaderBackend.Proofs.Shader.Reregistration
import ShaderBackend.Proofs.Spirv.Assembly
import ShaderBackend.Proofs.Spirv.Literals
import ShaderBackend.Proofs.Spirv.Loading
import ShaderBackend.Proofs.Shader.UnwrittenInputs
import ShaderBackend.Proofs.Spirv.SearchedPart
import ShaderBackend.Proofs.Spirv.PointerChain
import ShaderBackend.Proofs.Signature.Readers
import ShaderBackend.Proofs.Signature.Lookups
import ShaderBackend.Proofs.Spirv.TypeViews
import ShaderBackend.Proofs.Pool.Sizing

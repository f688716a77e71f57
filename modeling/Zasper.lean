import Zasper.Maps
import Zasper.Strings
import Zasper.Floats
import Zasper.JsonValues
import Zasper.JsonText
import Zasper.Structs
import Zasper.Notebooks
import Zasper.NotebookJson
import Zasper.SaveOpen
import Zasper.Paths
import Zasper.Trees
import Zasper.Programs
import Zasper.Runs
import Zasper.OperatingSystem
import Zasper.Http
import Zasper.Auth
import Zasper.ContentApi
import Zasper.ContentManager
import Zasper.Confinement
import Zasper.Nbformat
import Zasper.OpenNotebook
import Zasper.OpenSave
import Zasper.Encodings
import Zasper.Slices
import Zasper.KernelMessages
import Zasper.KernelResources
import Zasper.KernelSession
import Zasper.Kernels
import Zasper.Terminals
import Zasper.TerminalMessages
import Zasper.TerminalWriters
import Zasper.SessionStarts
import Zasper.ConfigFile
import Zasper.ConfigUpdates
import Zasper.Server
import Zasper.Unauthenticated
import Zasper.Commits
import Zasper.JsObjects
import Zasper.Tabs
import Zasper.ActiveTabs
import Zasper.FileBrowser
import Zasper.Editors
import Zasper.NotebookCells
import Zasper.FocusedCell
import Zasper.CellEditing
import Zasper.CellOutputs
import Zasper.TabSaves
import Zasper.SavedFiles
import Zasper.Handover
import Zasper.Relay
import Zasper.ClientMessages
import Zasper.SigningKeys
import Zasper.Kernelspecs
import Zasper.KernelManagers
import Zasper.KernelSupervisor
import Zasper.Registries
import Zasper.KernelDeletion
import Zasper.KernelPorts
import Zasper.KernelRequests
import Zasper.NotebookKernels
import Zasper.ClosedTabs
import Zasper.Volumes
import Zasper.ListedPaths
import Zasper.ReopenedFiles
import Zasper.StatusCodes
import Zasper.Pools
import Zasper.KeptFiles
import Zasper.Uploads
import Zasper.SafePaths
import Zasper.FileTrees
import Zasper.UntitledEntries
import Zasper.CreatedEntries
import Zasper.FailedSaves
import Zasper.SignedFrames
import Zasper.TerminalPayloads
import Zasper.ConnectionLock
import Zasper.ServedResources
import Zasper.Sorting
import Zasper.DirectoryOrder
import Zasper.Walks
import Zasper.FileSearch
import Zasper.UncommittedFiles
import Zasper.ContentWatcher
import Zasper.RepeatedSaves
import Zasper.ConnectionEnds
import Zasper.ConnectionLeaks
import Zasper.Leases
import Zasper.TerminalSessions
import Zasper.TerminalOutput
import Zasper.SearchCache
import Zasper.CutTexts
import Zasper.ConnectionFiles
import Zasper.CellValues
import Zasper.RunAll
import Zasper.CellRequests
import Zasper.Shutdown
import Zasper.CommitSelection
import Zasper.JsonMembers
import Zasper.ShownOutputs
import Zasper.SentNotebooks
import Zasper.SavedOutputs
import Zasper.Chains
import Zasper.CommitGraph
import Zasper.PublishedOutputs

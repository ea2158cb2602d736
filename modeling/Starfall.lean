import Starfall.Common.Isolates
import Starfall.Common.Lookup
import Starfall.Common.ObjectsUpdate
import Starfall.Common.Query
import Starfall.NativeClient.Application
import Starfall.NativeClient.Camera
import Starfall.NativeClient.Held
import Starfall.NativeClient.Locking
import Starfall.NativeClient.Mutexes
import Starfall.NativeClient.ObjectRound
import Starfall.NativeClient.Outstanding
import Starfall.NativeClient.Receiving
import Starfall.Script.Elements
import Starfall.Script.Loading
import Starfall.Server.Bodies
import Starfall.Server.Calm
import Starfall.Server.Cursors
import Starfall.Server.Difference
import Starfall.Server.Headers
import Starfall.Server.Identity
import Starfall.Server.ItemTypes
import Starfall.Server.Repeats
import Starfall.Server.Segmentation
import Starfall.Server.SpoiledRows
import Starfall.Server.WebTexts
import Starfall.Unity.ConsoleTexts
import Starfall.Unity.Converge
import Starfall.Unity.InFlight
import Starfall.Unity.Login
import Starfall.Unity.Newest
import Starfall.Unity.OwnEntity
import Starfall.Unity.Removal
import Starfall.Unity.SavedCharacter
import Starfall.Web.Children
import Starfall.Web.HexView
import Starfall.Web.ItemForms
import Starfall.Web.More
import Starfall.Web.News
import Starfall.Web.Palette
import Starfall.Web.Places

import Tmux.Library.Exec
import Tmux.Library.Queue
import Tmux.Library.Tree
import Tmux.Library.Keyed
import Tmux.Library.References
import Tmux.Library.Incremental
import Tmux.Library.Block
import Tmux.Library.Splice
import Tmux.Library.Heap
import Tmux.Library.Nearest
import Tmux.Library.Numeral
import Tmux.Library.CString
import Tmux.Library.Buffer
import Tmux.Library.Device
import Tmux.Library.Line
import Tmux.Library.Scan
import Tmux.Library.Tiling
import Tmux.Library.Slots
import Tmux.Library.Runs
import Tmux.Library.Stream
import Tmux.Library.Bytes
import Tmux.Arguments
import Tmux.Numbers
import Tmux.Layout.Cell
import Tmux.Layout.Adjust
import Tmux.Layout.Window
import Tmux.Layout.Text
import Tmux.Layout.Invariant
import Tmux.Layout.Reread
import Tmux.Layout.WithoutIds
import Tmux.Layout.History
import Tmux.Layout.Offsets
import Tmux.Layout.Tiles
import Tmux.Window.Table
import Tmux.Window.Choose
import Tmux.Window.Direction
import Tmux.Window.Panes
import Tmux.Layout.Split
import Tmux.Layout.Close
import Tmux.Layout.Spare
import Tmux.Layout.Resize
import Tmux.Layout.Run
import Tmux.Layout.Minimum
import Tmux.Layout.Exact
import Tmux.Window.Active
import Tmux.Window.SplitWindow
import Tmux.Window.Commands
import Tmux.Window.Selection
import Tmux.Window.SelectionRun
import Tmux.Window.Sizes
import Tmux.Session.Session
import Tmux.Session.Current
import Tmux.Session.Group
import Tmux.Session.Notify
import Tmux.Session.Registry
import Tmux.Session.References
import Tmux.Session.Counted
import Tmux.Session.Index
import Tmux.Command.List
import Tmux.Command.Argv
import Tmux.Command.Print
import Tmux.Command.Parse
import Tmux.Command.Pieces
import Tmux.Command.Quoted
import Tmux.Status.Redraw
import Tmux.Status.Click
import Tmux.Status.Format
import Tmux.Status.Replace
import Tmux.Status.Prompt
import Tmux.Status.PromptWords
import Tmux.Status.PromptLine
import Tmux.Status.PromptRun
import Tmux.Status.PromptDraw
import Tmux.Grid.Grid
import Tmux.Grid.View
import Tmux.Grid.Shape
import Tmux.Grid.Lines
import Tmux.Grid.Scroll
import Tmux.Grid.Copy
import Tmux.Grid.Shown
import Tmux.Grid.Rows
import Tmux.Grid.Data
import Tmux.Grid.Arrays
import Tmux.Grid.Owners
import Tmux.Grid.InsertCells
import Tmux.Grid.Moved
import Tmux.Utf8
import Tmux.Screen.ResizeArrays
import Tmux.Screen.Screen
import Tmux.Screen.Write
import Tmux.Screen.Pane
import Tmux.Screen.Kept
import Tmux.Screen.Characters
import Tmux.Screen.Resized
import Tmux.Screen.Style
import Tmux.Screen.Text
import Tmux.Screen.Written
import Tmux.Screen.Width
import Tmux.Screen.Bounded
import Tmux.Screen.InsertLines
import Tmux.Screen.Erased
import Tmux.Screen.Combined
import Tmux.Screen.Borders
import Tmux.Screen.Compare
import Tmux.Screen.Wide
import Tmux.Screen.Data
import Tmux.Screen.Columns
import Tmux.Screen.Measured
import Tmux.Screen.ResizedLines
import Tmux.Screen.Selected
import Tmux.Input.Input
import Tmux.Input.Dispatch
import Tmux.Input.Operation
import Tmux.Input.Kept
import Tmux.Input.Range
import Tmux.Input.Pending
import Tmux.Input.Replay
import Tmux.Input.Alternate
import Tmux.Copy.Mode
import Tmux.Copy.Motion
import Tmux.Copy.Words
import Tmux.Copy.Search
import Tmux.Copy.Selection
import Tmux.Copy.Keys
import Tmux.Copy.Position
import Tmux.Copy.Lines
import Tmux.Copy.Copied
import Tmux.Copy.Exchanged
import Tmux.Copy.PositionRun
import Tmux.Copy.Found
import Tmux.Copy.Nearest
import Tmux.Copy.PreviousWord
import Tmux.Copy.Terminates
import Tmux.Tty.Keys
import Tmux.Tty.Read
import Tmux.Tty.Decode
import Tmux.Tty.Mouse
import Tmux.Tty.Recognised
import Tmux.Tty.Split
import Tmux.Tty.KeyTree
import Tmux.Tty.XtermKeys
import Tmux.Tty.Within
import Tmux.Tty.Valid
import Tmux.Tty.Term
import Tmux.Tty.Strip
import Tmux.Tty.Attributes
import Tmux.Tty.Rendition
import Tmux.Tty.Cursor
import Tmux.Tty.Display
import Tmux.Tty.Draw
import Tmux.Tty.Drawn
import Tmux.Tty.Redraw
import Tmux.Tty.Columns
import Tmux.Tty.Commands
import Tmux.Tty.Cleared
import Tmux.Tty.Picture
import Tmux.Tty.Characters
import Tmux.Tty.Lines
import Tmux.Tty.Erasing
import Tmux.Tty.Alignment
import Tmux.Tty.Following
import Tmux.Input.Data
import Tmux.Input.Owners
import Tmux.Key.Names
import Tmux.Client.Imsg
import Tmux.Client.Delivery
import Tmux.Client.Dispatch
import Tmux.Client.Exchange
import Tmux.Client.Opened

import Lab8.Lib.Clocked
import Lab8.Lib.Raster
import Lab8.Lib.Latch
import Lab8.Lib.Pulse
import Lab8.Lib.Emit
import Lab8.Lib.Orbit
import Lab8.Lib.Hex
import Lab8.Lib.Dict
import Lab8.Actor
import Lab8.Wall
import Lab8.Ball
import Lab8.Evil
import Lab8.Tables
import Lab8.Food
import Lab8.Vga
import Lab8.Display
import Lab8.Design
import Lab8.Maze
import Lab8.Frame
import Lab8.Steering
import Lab8.Safety
import Lab8.GameOver
import Lab8.Tunnel
import Lab8.Motion
import Lab8.Ghosts
import Lab8.Score
import Lab8.Scan
import Lab8.Sweep
import Lab8.Tearing
import Lab8.Visited
import Lab8.Forget
import Lab8.Contact
import Lab8.Sprites
import Lab8.Letters
import Lab8.Align
import Lab8.Layers
import Lab8.Drawn
import Lab8.Screen
import Lab8.Picture
import Lab8.Painted
import Lab8.Palette
import Lab8.Walk
import Lab8.Patrol
import Lab8.Control
import Lab8.Refuge
import Lab8.Collect
import Lab8.IoHandler
import Lab8.Usb
import Lab8.UsbTd
import Lab8.Main
import Lab8.Enumerate
import Lab8.Exchange
import Lab8.Top
import Lab8.HpiIntf
import Lab8.HpiBus
import Lab8.Transfer
